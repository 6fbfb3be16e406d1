import Thompson.Proofs.Pattern.Balance
import Thompson.Proofs.Pattern.Violation

/-!
The parser against the grammar. A reader of phrases stops in one of three ways
(`Phrase.Stops`). If it has read a phrase, the text that it has taken leaves it
with a whole expression, and one that reads an expression stops at no earlier
place. The scan that comes before rejects, of the texts that can be read, those
with two stars in a row and no others.
-/

namespace Thompson

namespace Pattern

theorem finish_eq_ok_iff {p : Progress} {pos : Nat} {tree : Regex} :
    p.finish pos = .ok tree ↔ p.complete? = some tree := by
  obtain ⟨enclosing, level⟩ := p
  unfold Progress.finish Progress.complete?
  cases level.value? with
  | none =>
      cases enclosing with
      | nil => simp
      | cons frame outer => simp
  | some group =>
      cases enclosing with
      | nil => simp
      | cons frame outer => simp

theorem finish_eq_error_iff {p : Progress} {pos : Nat} {fault : Fault} :
    p.finish pos = .error fault ↔
      p.level.value? = none ∧ fault = .ended pos ∨
        ∃ group frame outer, p.level.value? = some group ∧ p.enclosing = frame :: outer ∧
          fault = .unclosed frame.opened := by
  obtain ⟨enclosing, level⟩ := p
  unfold Progress.finish
  cases level.value? with
  | none => simp [eq_comm]
  | some group =>
      cases enclosing with
      | nil => simp
      | cons frame outer => simp [eq_comm]

/-- The ways in which a reader stops. It keeps `p`, stands at `pos`, and the text is what lies
ahead. -/
inductive Phrase.Stops (phrase : Phrase) (pos : Nat) (p : Progress) :
    Text → Except Fault Regex × Cursor Char → Prop where
  | exhausted : phrase.Stops pos p [] (p.finish pos, ⟨[], pos⟩)
  | complete {c : Char} {rest : Text} {tree : Regex} :
      phrase.goesOn (.ofChar c) = false → p.complete? = some tree →
        phrase.Stops pos p (c :: rest) (.ok tree, ⟨c :: rest, pos⟩)
  | stuck {c : Char} {rest : Text} :
      p.advance? pos (.ofChar c) = none →
        phrase.Stops pos p (c :: rest) (.error (.misplaced c pos), ⟨rest, pos + 1⟩)

theorem endsAs?_eq_some_iff {phrase : Phrase} {token : Token} {p : Progress} {tree : Regex} :
    p.endsAs? phrase token = some tree ↔ phrase.goesOn token = false ∧ p.complete? = some tree := by
  unfold Progress.endsAs?
  cases phrase.goesOn token <;> simp

/-- Every reader takes some of its text and stops there. -/
theorem exists_stops (phrase : Phrase) (p : Progress) (pos : Nat) (text : Text) :
    ∃ w rest q, text = w ++ rest ∧ p.through? pos w = some q ∧
      phrase.Stops (pos + w.length) q rest (phrase.readOn p pos text) := by
  induction text generalizing p pos with
  | nil => exact ⟨[], [], p, rfl, rfl, .exhausted⟩
  | cons c rest ih =>
      rw [Phrase.readOn]
      cases hends : p.endsAs? phrase (.ofChar c) with
      | some tree =>
          obtain ⟨hgoesOn, hcomplete⟩ := endsAs?_eq_some_iff.mp hends
          exact ⟨[], c :: rest, p, rfl, rfl, .complete hgoesOn hcomplete⟩
      | none =>
          cases hadvance : p.advance? pos (.ofChar c) with
          | none => exact ⟨[], c :: rest, p, rfl, rfl, .stuck hadvance⟩
          | some next =>
              obtain ⟨w, ahead, q, rfl, hrun, hstops⟩ := ih next (pos + 1)
              refine ⟨c :: w, ahead, q, rfl, ?_, ?_⟩
              · rw [Progress.through?, hadvance]
                exact hrun
              · rw [List.length_cons, Nat.add_comm w.length, ← Nat.add_assoc]
                exact hstops

/-- A phrase that has been read is the text between where the reader started and
where it stands. -/
theorem through?_of_readOn {phrase : Phrase} {p : Progress} {pos : Nat} {text : Text}
    {tree : Regex} {place : Cursor Char} (h : phrase.readOn p pos text = (.ok tree, place)) :
    ∃ w q, text = w ++ place.rest ∧ place.pos = pos + w.length ∧ p.through? pos w = some q ∧
      q.complete? = some tree := by
  obtain ⟨w, rest, q, rfl, hrun, hstops⟩ := exists_stops phrase p pos text
  generalize phrase.readOn p pos (w ++ rest) = result at h hstops
  cases hstops with
  | exhausted =>
      obtain ⟨hfinish, rfl⟩ := Prod.mk.inj h
      exact ⟨w, q, rfl, rfl, hrun, finish_eq_ok_iff.mp hfinish⟩
  | complete hgoesOn hcomplete =>
      cases h
      exact ⟨w, q, rfl, rfl, hrun, hcomplete⟩
  | stuck hadvance => cases h

/-- Only a closing parenthesis ends an expression, and then one that closes no group. -/
theorem endsAs?_of_takes {p q : Progress} {pos : Nat} {c : Char} (h : Progress.Takes pos p c q) :
    p.endsAs? .expression (.ofChar c) = none := by
  cases h with
  | opening => rfl
  | closing hvalue => rfl
  | bar hnext => rfl
  | star hnext => rfl
  | item hitem =>
      rw [hitem]
      rfl

/-- A reader goes through a text that does not complete its phrase on the way. -/
theorem readOn_of_open {phrase : Phrase} {p q : Progress} {pos : Nat} {w : Text} (rest : Text)
    (h : p.through? pos w = some q)
    (hopen : ∀ u c v s, w = u ++ c :: v → p.through? pos u = some s →
      s.endsAs? phrase (.ofChar c) = none) :
    phrase.readOn p pos (w ++ rest) = phrase.readOn q (pos + w.length) rest := by
  induction w generalizing p pos with
  | nil =>
      obtain rfl := Option.some.inj h
      rfl
  | cons c w ih =>
      obtain ⟨next, hnext, hrest⟩ := Option.bind_eq_some_iff.mp h
      have hlater : ∀ u d v s, w = u ++ d :: v → next.through? (pos + 1) u = some s →
          s.endsAs? phrase (.ofChar d) = none := by
        intro u d v s hw hrun
        apply hopen (c :: u) d v s (congrArg (c :: ·) hw)
        rw [Progress.through?, hnext]
        exact hrun
      rw [List.cons_append, Phrase.readOn, hopen [] c w p rfl rfl, hnext]
      simp only [List.length_cons]
      rw [ih hrest hlater, Nat.add_right_comm, Nat.add_assoc]

/-- An expression does not end before a character that is taken. -/
theorem readOn_of_through? {p q : Progress} {pos : Nat} {w : Text} (rest : Text)
    (h : p.through? pos w = some q) :
    Phrase.expression.readOn p pos (w ++ rest) =
      Phrase.expression.readOn q (pos + w.length) rest := by
  apply readOn_of_open rest h
  rintro u c v s rfl hrun
  rw [Progress.through?_append, hrun, Option.bind_some] at h
  obtain ⟨next, hnext, -⟩ := Option.bind_eq_some_iff.mp h
  exact endsAs?_of_takes (Progress.advance?_eq_some_iff.mp hnext)

/-- An expression that is the whole text is read as what the grammar derives. -/
theorem read_expression_iff (w : Text) (tree : Regex) :
    (∃ place, Phrase.expression.read (.ofList w) = (.ok tree, place) ∧ place.rest = []) ↔
      Derives .expression w tree := by
  rw [Progress.derives_iff_through? 0]
  constructor
  · rintro ⟨place, hread, hrest⟩
    obtain ⟨v, q, hw, -, hrun, hcomplete⟩ := through?_of_readOn hread
    rw [hrest, List.append_nil] at hw
    have hw : w = v := hw
    exact ⟨q, hw ▸ hrun, hcomplete⟩
  · rintro ⟨q, hrun, hcomplete⟩
    have hread := readOn_of_through? [] hrun
    rw [List.append_nil, Phrase.readOn, finish_eq_ok_iff.mpr hcomplete] at hread
    exact ⟨_, hread, rfl⟩

/-- The scan passes no star right after another. -/
theorem not_doubled_of_check {w : Text} (h : check w = .ok ()) : ¬ ['*', '*'] <:+: w := by
  rintro ⟨before, rest, rfl⟩
  have hpassed := check_eq_ok_iff.mp h (before ++ ['*']).length
  have htext : before ++ ['*', '*'] ++ rest = before ++ ['*'] ++ '*' :: rest := by simp
  rw [htext, violation_next_iff] at hpassed
  exact hpassed (Or.inr ⟨rfl, List.getLast?_concat⟩)

/-- A reader that has taken a bar misses an item and takes no other bar. -/
theorem not_through?_bars {p q : Progress} {pos : Nat} {u v : Text} :
    p.through? pos (u ++ '|' :: '|' :: v) ≠ some q := by
  intro hrun
  rw [Progress.through?_append] at hrun
  obtain ⟨before, -, hbars⟩ := Option.bind_eq_some_iff.mp hrun
  obtain ⟨middle, hfirst, hrest⟩ := Option.bind_eq_some_iff.mp hbars
  obtain ⟨after, hsecond, -⟩ := Option.bind_eq_some_iff.mp hrest
  cases Progress.advance?_eq_some_iff.mp hfirst with
  | item hitem => cases hitem
  | bar hnext =>
      obtain ⟨choices, -, rfl⟩ := Option.map_eq_some_iff.mp hnext
      cases Progress.advance?_eq_some_iff.mp hsecond with
      | item hitem => cases hitem
      | bar hagain => cases hagain

/-- A text of the grammar closes no group too many, and its bars stand apart. -/
theorem not_violation_of_derives {w : Text} {tree : Regex} (h : Derives .expression w tree)
    (hstars : ¬ ['*', '*'] <:+: w) (p : Nat) : ¬ Violation w p := by
  intro hviolation
  obtain ⟨u, c, v, rfl, -, hkind⟩ := exists_of_violation hviolation
  rcases hkind with ⟨rfl, hclosed⟩ | ⟨hoperator, hlast⟩
  · have hopened := (Balanced.of_derives h).opens_first (u ++ [')']) ⟨v, by simp⟩
    simp only [List.count_append, List.count_singleton] at hopened
    simp at hopened
    omega
  · obtain ⟨before, rfl⟩ := List.getLast?_eq_some_iff.mp hlast
    rcases isOperator_iff.mp hoperator with rfl | rfl
    · exact hstars ⟨before, v, by simp⟩
    · obtain ⟨q, hrun, -⟩ := (Progress.derives_iff_through? 0 _ tree).mp h
      rw [List.append_assoc] at hrun
      exact not_through?_bars hrun

/-- The scan rejects a text of the grammar for its doubled stars alone. -/
theorem check_iff_of_derives {w : Text} {tree : Regex} (h : Derives .expression w tree) :
    check w = .ok () ↔ ¬ ['*', '*'] <:+: w := by
  constructor
  · exact not_doubled_of_check
  · intro hstars
    exact check_eq_ok_iff.mpr (not_violation_of_derives h hstars)

theorem parse_eq_ok_iff {w : Text} {tree : Regex} :
    Regex.parse w = .ok tree ↔ check w = .ok () ∧
      ∃ place, Phrase.expression.read (.ofList w) = (.ok tree, place) ∧ place.rest = [] := by
  unfold Regex.parse
  cases check w with
  | error fault => simp [bind, Except.bind]
  | ok done =>
      obtain ⟨outcome, place⟩ := Phrase.expression.read (.ofList w)
      cases outcome with
      | error fault => simp [bind, Except.bind]
      | ok read =>
          obtain ⟨rest, pos⟩ := place
          cases rest with
          | nil => simp [bind, Except.bind, Cursor.peek, and_assoc]
          | cons c rest => simp [bind, Except.bind, Cursor.peek]

theorem parse_eq_ok_iff_derives {w : Text} {tree : Regex} :
    Regex.parse w = .ok tree ↔ ¬ ['*', '*'] <:+: w ∧ Derives .expression w tree := by
  rw [parse_eq_ok_iff, read_expression_iff]
  constructor
  · rintro ⟨hcheck, hderives⟩
    exact ⟨(check_iff_of_derives hderives).mp hcheck, hderives⟩
  · rintro ⟨hstars, hderives⟩
    exact ⟨(check_iff_of_derives hderives).mpr hstars, hderives⟩

end Pattern

open Pattern

/-- The parser accepts the texts of the grammar without doubled stars, each with the
only tree that the grammar has for it. Every other text is an error. -/
theorem Regex.parse_decides_grammar (pattern : Text) :
    (∀ tree, Regex.parse pattern = .ok tree ↔
      ¬ ['*', '*'] <:+: pattern ∧ Derives .expression pattern tree) ∧
    ((∃ tree, Regex.parse pattern = .ok tree ∧
        ∀ other, Derives .expression pattern other ↔ other = tree) ∨
      ∃ fault, Regex.parse pattern = .error fault ∧
        (['*', '*'] <:+: pattern ∨ ¬ ∃ tree, Derives .expression pattern tree)) := by
  refine ⟨fun tree => parse_eq_ok_iff_derives, ?_⟩
  cases hparse : Regex.parse pattern with
  | ok tree =>
      left
      obtain ⟨hstars, hderives⟩ := parse_eq_ok_iff_derives.mp hparse
      refine ⟨tree, rfl, ?_⟩
      intro other
      constructor
      · intro hother
        have hagain := parse_eq_ok_iff_derives.mpr ⟨hstars, hother⟩
        rw [hparse] at hagain
        exact (Except.ok.inj hagain).symm
      · rintro rfl
        exact hderives
  | error fault =>
      right
      refine ⟨fault, rfl, ?_⟩
      apply Decidable.or_iff_not_imp_left.mpr
      rintro hstars ⟨tree, hderives⟩
      have haccepted := parse_eq_ok_iff_derives.mpr ⟨hstars, hderives⟩
      rw [hparse] at haccepted
      cases haccepted

end Thompson
