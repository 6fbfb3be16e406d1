import Thompson.Proofs.Automaton.Drawing
import Thompson.Proofs.Automaton.Segment

/-!
Rows that can be told from their arrows. The letter epsilon is drawn like a silent edge, and
the number of a state tells the two apart: a part opens in a state of even number, which
reads on its only edge or has two silent ones, and it closes in one of odd number, which does
not read. The compositions keep to this, so such tables are told from the drawings.
-/

namespace Thompson

theorem Symbol.text_inj {s t : Symbol} (hs : s ≠ .char '.') (ht : t ≠ .char '.')
    (h : s.text = t.text) : s = t :=
  eq_of_inverse (Symbol.ofText?_text hs) (Symbol.ofText?_text ht) h

/-- The rows that the state `s` may have. -/
inductive Row.Legible (s : Nat) : Row → Prop where
  | reads {symbol : Symbol} (t : Nat) (hopening : s % 2 = 0) (hdot : symbol ≠ .char '.') :
      Legible s (.single (.symbol symbol) [t])
  | forks (t u : Nat) : Legible s (.single .epsilon [t, u])
  | leaves (t : Nat) (hclosing : s % 2 = 1) : Legible s (.single .epsilon [t])

namespace Row

variable {s : Nat} {row row' : Row}

theorem Legible.arrows_ne_nil (h : row.Legible s) : row.arrows s ≠ [] := by
  cases h with
  | reads t => exact List.cons_ne_nil _ _
  | forks t u => exact List.cons_ne_nil _ _
  | leaves t => exact List.cons_ne_nil _ _

theorem arrows_single_inj {label label' : Label} {t t' : Nat} {more more' : List Nat}
    (h : Row.arrows (.single label (t :: more)) s = Row.arrows (.single label' (t' :: more')) s) :
    label.caption = label'.caption ∧ t :: more = t' :: more' := by
  rw [arrows_single, arrows_single] at h
  have htargets := congrArg (List.map Arrow.target) h
  simp only [List.map_map, Function.comp_def, List.map_id'] at htargets
  exact ⟨congrArg Arrow.caption (List.cons.inj h).1, htargets⟩

/-- Only a row that reads and one that leaves have arrows of one shape, and no state may
have both. -/
theorem Legible.eq_of_arrows_eq (h : row.Legible s) (h' : row'.Legible s)
    (harrows : row.arrows s = row'.arrows s) : row = row' := by
  cases h with
  | @reads symbol t hopening hdot =>
      cases h' with
      | @reads symbol' t' hopening' hdot' =>
          obtain ⟨hcaption, htargets⟩ := arrows_single_inj harrows
          rw [htargets, Symbol.text_inj hdot hdot' hcaption]
      | forks t' u' => cases (arrows_single_inj harrows).2
      | leaves t' hclosing => omega
  | forks t u =>
      cases h' with
      | reads t' => cases (arrows_single_inj harrows).2
      | forks t' u' => rw [(arrows_single_inj harrows).2]
      | leaves t' => cases (arrows_single_inj harrows).2
  | leaves t hclosing =>
      cases h' with
      | reads t' hopening => omega
      | forks t' u' => cases (arrows_single_inj harrows).2
      | leaves t' => rw [(arrows_single_inj harrows).2]

end Row

namespace Automaton

/-- A state in which the automaton accepts may get a row that leaves it later on. -/
structure Legible (a : Automaton) : Prop where
  row : ∀ s row, a.table.get? s = some row → row.Legible s
  exit_odd : ∀ s ∈ a.accept, s % 2 = 1

theorem legible_single {symbol : Symbol} {names : Names} (hdot : symbol ≠ .char '.')
    (hnames : names.next % 2 = 0) : (single symbol names).1.Legible where
  row := by
    intro s row hrow
    rw [single_eq, OrdMap.get?_single] at hrow
    by_cases hs : names.next = s
    · rw [if_pos hs] at hrow
      rw [← Option.some.inj hrow]
      exact .reads _ (hs ▸ hnames) hdot
    · rw [if_neg hs] at hrow
      cases hrow
  exit_odd := by
    intro s hs
    rw [single_eq] at hs
    rw [OrdSet.mem_singleton.mp hs]
    omega

namespace Legible

variable {a b : Automaton} {first size more exit finish : Nat} {names : Names}

/-- The bridge leaves a state in which the first part has accepted. -/
theorem chain (ha : a.Legible) (hb : b.Legible) (hleft : a.Segment first size exit)
    (hright : b.Segment (first + size) more finish) : (a.chain b).Legible where
  row := by
    intro s row hrow
    rcases row_of_chain hleft hright hrow with hold | hold | ⟨hs, rfl⟩
    · exact ha.row s row hold
    · exact hb.row s row hold
    · exact .leaves _ (ha.exit_odd s hs)
  exit_odd := by
    rw [chain_eq]
    exact hb.exit_odd

theorem choice (ha : a.Legible) (hb : b.Legible) (hleft : a.Segment first size exit)
    (hright : b.Segment (first + size) more finish) (hnames : names.next = first + size + more)
    (heven : names.next % 2 = 0) : (a.choice b names).1.Legible where
  row := by
    intro s row hrow
    rcases row_of_choice hleft hright hnames hrow with
      hold | hold | ⟨-, rfl⟩ | ⟨hs | hs, rfl⟩
    · exact ha.row s row hold
    · exact hb.row s row hold
    · exact .forks _ _
    · exact .leaves _ (ha.exit_odd s hs)
    · exact .leaves _ (hb.exit_odd s hs)
  exit_odd := by
    intro s hs
    rw [choice_eq] at hs
    rw [OrdSet.mem_singleton.mp hs]
    omega

theorem loop (ha : a.Legible) (hbody : a.Segment first size exit)
    (hnames : names.next = first + size) (heven : names.next % 2 = 0) :
    (a.loop names).1.Legible where
  row := by
    intro s row hrow
    rcases row_of_loop hbody hnames hrow with hold | rfl
    · exact ha.row s row hold
    · exact .forks _ _
  exit_odd := by
    intro s hs
    rw [loop_eq] at hs
    rw [OrdSet.mem_singleton.mp hs]
    omega

theorem table_eq_of_drawing_eq (ha : a.Legible) (hb : b.Legible)
    (h : a.drawing = b.drawing) : a.table = b.table := by
  apply OrdMap.ext
  intro s
  have harrows : ((a.table.get? s).elim [] fun row => row.arrows s) =
      (b.table.get? s).elim [] fun row => row.arrows s := by
    rw [← filter_arrows, h, filter_arrows]
  cases hleft : a.table.get? s with
  | none =>
      cases hright : b.table.get? s with
      | none => rfl
      | some row =>
          rw [hleft, hright] at harrows
          exact absurd harrows.symm (hb.row s row hright).arrows_ne_nil
  | some row =>
      rw [hleft] at harrows
      cases hright : b.table.get? s with
      | none =>
          rw [hright] at harrows
          exact absurd harrows (ha.row s row hleft).arrows_ne_nil
      | some row' =>
          rw [hright] at harrows
          rw [(ha.row s row hleft).eq_of_arrows_eq (hb.row s row' hright) harrows]

end Legible

end Automaton

end Thompson
