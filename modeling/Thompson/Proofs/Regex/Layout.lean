import Thompson.Automaton.Basic
import Thompson.Proofs.Ordered
import Thompson.Regex.Factors

/-!
How factors lie in an automaton. The part of a factor takes an interval of names,
two for each node, and starts in the last of them but one. The list of states
falls into the parts of the factors, since its first state tells how many names
the first part takes, and the row of that state tells the kind of the factor.
So one automaton holds one list of factors at most.
-/

namespace Thompson

namespace Factor

mutual

def weight : Factor → Nat
  | .char _ | .any => 1
  | .alt ls rs => listWeight ls + listWeight rs + 1
  | .star fs => listWeight fs + 1

def listWeight : List Factor → Nat
  | [] => 0
  | f :: rest => f.weight + listWeight rest

end

/-- The state in which the part of a factor starts that takes the names from `n` on:
the last of them but one. -/
def entry (f : Factor) (n : Nat) : Nat := n + 2 * (f.weight - 1)

def listEntry : List Factor → Nat → Nat
  | [], n => n
  | f :: _, n => f.entry n

mutual

/-- The states of the part in their order. -/
def states : Factor → Nat → List Nat
  | .char _, n | .any, n => [n, n + 1]
  | .alt ls rs, n =>
      let start := n + 2 * (listWeight ls + listWeight rs)
      start :: (listStates ls n ++ listStates rs (n + 2 * listWeight ls) ++ [start + 1])
  | .star fs, n =>
      let start := n + 2 * listWeight fs
      start :: (listStates fs n ++ [start + 1])

def listStates : List Factor → Nat → List Nat
  | [], _ => []
  | f :: rest, n => f.states n ++ listStates rest (n + 2 * f.weight)

end

/-- The row of the state in which the part starts. -/
def row : Factor → Nat → Row
  | .char c, n => .single (.symbol (.char c)) [n + 1]
  | .any, n => .single (.symbol .any) [n + 1]
  | .alt ls rs, n => .single .epsilon [listEntry ls n, listEntry rs (n + 2 * listWeight ls)]
  | .star fs, n => .single .epsilon [listEntry fs n, n + 2 * listWeight fs + 1]

mutual

/-- The table has the rows in which the part starts, and those in which the parts
inside it start. -/
def Shows (t : Table) : Factor → Nat → Prop
  | .char c, n => t.get? (entry (.char c) n) = some (row (.char c) n)
  | .any, n => t.get? (entry .any n) = some (row .any n)
  | .alt ls rs, n =>
      t.get? (entry (.alt ls rs) n) = some (row (.alt ls rs) n) ∧
        ListShows t ls n ∧ ListShows t rs (n + 2 * listWeight ls)
  | .star fs, n =>
      t.get? (entry (.star fs) n) = some (row (.star fs) n) ∧ ListShows t fs n

def ListShows (t : Table) : List Factor → Nat → Prop
  | [], _ => True
  | f :: rest, n => f.Shows t n ∧ ListShows t rest (n + 2 * f.weight)

end

theorem weight_pos (f : Factor) : 0 < f.weight := by
  cases f with
  | char c => exact Nat.one_pos
  | any => exact Nat.one_pos
  | alt ls rs => exact Nat.succ_pos _
  | star fs => exact Nat.succ_pos _

theorem Shows.get?_entry {t : Table} {f : Factor} {n : Nat} (h : f.Shows t n) :
    t.get? (f.entry n) = some (f.row n) := by
  cases f with
  | char c => exact h
  | any => exact h
  | alt ls rs => exact h.1
  | star fs => exact h.1

private theorem next_cons (f : Factor) (rest : List Factor) (n : Nat) :
    n + 2 * f.weight + 2 * listWeight rest = n + 2 * listWeight (f :: rest) := by
  rw [listWeight]
  omega

section Append

variable (fs gs : List Factor) (n : Nat)

theorem listWeight_append : listWeight (fs ++ gs) = listWeight fs + listWeight gs := by
  induction fs with
  | nil => exact (Nat.zero_add _).symm
  | cons f rest ih =>
      rw [List.cons_append, listWeight, listWeight, ih]
      omega

theorem listStates_append :
    listStates (fs ++ gs) n = listStates fs n ++ listStates gs (n + 2 * listWeight fs) := by
  induction fs generalizing n with
  | nil => rfl
  | cons f rest ih =>
      rw [List.cons_append, listStates, listStates, ih, next_cons, List.append_assoc]

theorem listShows_append {t : Table} :
    ListShows t (fs ++ gs) n ↔ ListShows t fs n ∧ ListShows t gs (n + 2 * listWeight fs) := by
  induction fs generalizing n with
  | nil => simp [ListShows, listWeight]
  | cons f rest ih =>
      rw [List.cons_append, ListShows, ListShows, ih, next_cons, and_assoc]

end Append

mutual

/-- A table that keeps all rows shows the same factors. -/
theorem Shows.mono {t u : Table} (hkeep : ∀ s row, t.get? s = some row → u.get? s = some row) :
    ∀ {f : Factor} {n : Nat}, f.Shows t n → f.Shows u n
  | .char _, _, h => hkeep _ _ h
  | .any, _, h => hkeep _ _ h
  | .alt _ _, _, h => ⟨hkeep _ _ h.1, ListShows.mono hkeep h.2.1, ListShows.mono hkeep h.2.2⟩
  | .star _, _, h => ⟨hkeep _ _ h.1, ListShows.mono hkeep h.2⟩

theorem ListShows.mono {t u : Table}
    (hkeep : ∀ s row, t.get? s = some row → u.get? s = some row) :
    ∀ {fs : List Factor} {n : Nat}, ListShows t fs n → ListShows u fs n
  | [], _, _ => trivial
  | _ :: _, _, h => ⟨Shows.mono hkeep h.1, ListShows.mono hkeep h.2⟩

end

mutual

theorem length_states : ∀ (f : Factor) (n : Nat), (f.states n).length = 2 * f.weight
  | .char _, _ => rfl
  | .any, _ => rfl
  | .alt ls rs, n => by
      have hl := length_listStates ls n
      have hr := length_listStates rs (n + 2 * listWeight ls)
      simp only [states, weight, List.length_cons, List.length_append, List.length_nil, hl, hr]
      omega
  | .star fs, n => by
      have hfs := length_listStates fs n
      simp only [states, weight, List.length_cons, List.length_append, List.length_nil, hfs]
      omega

theorem length_listStates :
    ∀ (fs : List Factor) (n : Nat), (listStates fs n).length = 2 * listWeight fs
  | [], _ => rfl
  | f :: rest, n => by
      have hf := length_states f n
      have hrest := length_listStates rest (n + 2 * f.weight)
      simp only [listStates, listWeight, List.length_append, hf, hrest]
      omega

end

mutual

theorem lt_of_mem_states : ∀ {f : Factor} {n s : Nat}, s ∈ f.states n → s < n + 2 * f.weight
  | .char _, n, s, h => by
      simp only [states, List.mem_cons, List.not_mem_nil, or_false] at h
      unfold weight
      omega
  | .any, n, s, h => by
      simp only [states, List.mem_cons, List.not_mem_nil, or_false] at h
      unfold weight
      omega
  | .alt ls rs, n, s, h => by
      simp only [states, List.mem_cons, List.mem_append, List.not_mem_nil, or_false] at h
      unfold weight
      rcases h with rfl | (hl | hr) | rfl
      · omega
      · have hbound := lt_of_mem_listStates hl
        omega
      · have hbound := lt_of_mem_listStates hr
        omega
      · omega
  | .star fs, n, s, h => by
      simp only [states, List.mem_cons, List.mem_append, List.not_mem_nil, or_false] at h
      unfold weight
      rcases h with rfl | hfs | rfl
      · omega
      · have hbound := lt_of_mem_listStates hfs
        omega
      · omega

theorem lt_of_mem_listStates :
    ∀ {fs : List Factor} {n s : Nat}, s ∈ listStates fs n → s < n + 2 * listWeight fs
  | f :: rest, n, s, h => by
      rw [listStates, List.mem_append] at h
      unfold listWeight
      rcases h with hf | hrest
      · have hbound := lt_of_mem_states hf
        omega
      · have hbound := lt_of_mem_listStates hrest
        omega

end

theorem exists_states (f : Factor) (n : Nat) : ∃ tail, f.states n = f.entry n :: tail := by
  cases f with
  | char c => exact ⟨_, rfl⟩
  | any => exact ⟨_, rfl⟩
  | alt ls rs => exact ⟨_, rfl⟩
  | star fs => exact ⟨_, rfl⟩

theorem head?_listStates {fs : List Factor} (hfs : fs ≠ []) (n : Nat) :
    (listStates fs n).head? = some (listEntry fs n) := by
  cases fs with
  | nil => exact absurd rfl hfs
  | cons f rest =>
      obtain ⟨tail, htail⟩ := f.exists_states n
      rw [listStates, htail]
      rfl

theorem le_listEntry (fs : List Factor) (n : Nat) : n ≤ listEntry fs n := by
  cases fs with
  | nil => exact Nat.le_refl n
  | cons f rest => exact Nat.le_add_right n _

theorem listEntry_le (fs : List Factor) (n : Nat) : listEntry fs n ≤ n + 2 * listWeight fs := by
  cases fs with
  | nil => exact Nat.le_add_right n _
  | cons f rest =>
      rw [listEntry, entry, listWeight]
      omega

/-- The first state tells the weight of the first factor. -/
theorem weight_eq_of_listStates {f g : Factor} {fs gs : List Factor} {n : Nat}
    (h : listStates (f :: fs) n = listStates (g :: gs) n) : f.weight = g.weight := by
  obtain ⟨ftail, hf⟩ := f.exists_states n
  obtain ⟨gtail, hg⟩ := g.exists_states n
  rw [listStates, listStates, hf, hg] at h
  have hentry : f.entry n = g.entry n := (List.cons.inj h).1
  have hfpos := f.weight_pos
  have hgpos := g.weight_pos
  unfold entry at hentry
  omega

/-- The state that begins the second list cannot lie within a longer first one. -/
private theorem listWeight_le {ls rs ls' rs' : List Factor} {n : Nat}
    (hstates : listStates ls n ++ listStates rs (n + 2 * listWeight ls) =
      listStates ls' n ++ listStates rs' (n + 2 * listWeight ls'))
    (hentry : listEntry rs (n + 2 * listWeight ls) = listEntry rs' (n + 2 * listWeight ls')) :
    listWeight ls' ≤ listWeight ls := by
  apply Nat.le_of_not_lt
  intro hlt
  cases rs with
  | nil =>
      have hlength := congrArg List.length hstates
      simp only [List.length_append, length_listStates, listWeight] at hlength
      omega
  | cons f rest =>
      have hbegin : (listStates ls n ++
          listStates (f :: rest) (n + 2 * listWeight ls))[2 * listWeight ls]? =
            some (listEntry (f :: rest) (n + 2 * listWeight ls)) := by
        obtain ⟨tail, htail⟩ := f.exists_states (n + 2 * listWeight ls)
        have hlength := length_listStates ls n
        rw [List.getElem?_append_right (Nat.le_of_eq hlength), hlength, Nat.sub_self, listStates,
          htail]
        rfl
      have hinside : 2 * listWeight ls < (listStates ls' n).length := by
        rw [length_listStates]
        omega
      rw [hstates, List.getElem?_append_left hinside] at hbegin
      have hbelow := lt_of_mem_listStates (List.mem_of_getElem? hbegin)
      have habove := le_listEntry rs' (n + 2 * listWeight ls')
      omega

/-- Where the second list begins tells how long the first one is. -/
theorem listStates_append_inj {ls rs ls' rs' : List Factor} {n : Nat}
    (hstates : listStates ls n ++ listStates rs (n + 2 * listWeight ls) =
      listStates ls' n ++ listStates rs' (n + 2 * listWeight ls'))
    (hentry : listEntry rs (n + 2 * listWeight ls) = listEntry rs' (n + 2 * listWeight ls')) :
    listWeight ls = listWeight ls' ∧ listStates ls n = listStates ls' n ∧
      listStates rs (n + 2 * listWeight ls) = listStates rs' (n + 2 * listWeight ls') := by
  have hle := listWeight_le hstates hentry
  have hge := listWeight_le hstates.symm hentry.symm
  have hweight : listWeight ls = listWeight ls' := Nat.le_antisymm hge hle
  have hlength : (listStates ls n).length = (listStates ls' n).length := by
    rw [length_listStates, length_listStates, hweight]
  exact ⟨hweight, List.append_inj hstates hlength⟩

theorem row_eq_of_shows {t : Table} {f g : Factor} {n : Nat} (hweight : f.weight = g.weight)
    (hf : f.Shows t n) (hg : g.Shows t n) : f.row n = g.row n := by
  have hentry : f.entry n = g.entry n := by rw [entry, entry, hweight]
  have hrow := hf.get?_entry
  rw [hentry, hg.get?_entry] at hrow
  exact (Option.some.inj hrow).symm

mutual

/-- A table shows at most one factor on the same states. -/
theorem eq_of_shows {t : Table} : ∀ {f g : Factor} {n : Nat}, f.states n = g.states n →
    f.weight = g.weight → f.Shows t n → g.Shows t n → f = g
  | .char c, g, n, _, hweight, hf, hg => by
      have hrow := row_eq_of_shows hweight hf hg
      cases g with
      | char d =>
          obtain ⟨hlabel, _⟩ := OrdMap.single_inj.mp hrow
          cases hlabel
          rfl
      | any => cases (OrdMap.single_inj.mp hrow).1
      | alt ls rs => cases (OrdMap.single_inj.mp hrow).1
      | star fs => cases (OrdMap.single_inj.mp hrow).1
  | .any, g, n, _, hweight, hf, hg => by
      have hrow := row_eq_of_shows hweight hf hg
      cases g with
      | char d => cases (OrdMap.single_inj.mp hrow).1
      | any => rfl
      | alt ls rs => cases (OrdMap.single_inj.mp hrow).1
      | star fs => cases (OrdMap.single_inj.mp hrow).1
  | .alt ls rs, g, n, hstates, hweight, hf, hg => by
      have hrow := row_eq_of_shows hweight hf hg
      cases g with
      | char d => cases (OrdMap.single_inj.mp hrow).1
      | any => cases (OrdMap.single_inj.mp hrow).1
      | alt ls' rs' =>
          obtain ⟨_, htargets⟩ := OrdMap.single_inj.mp hrow
          have hentry := (List.cons.inj (List.cons.inj htargets).2).1
          have hinner := List.append_inj_left' (List.cons.inj hstates).2 rfl
          obtain ⟨hleft, hls, hrs⟩ := listStates_append_inj hinner hentry
          obtain ⟨_, hfl, hfr⟩ := hf
          obtain ⟨_, hgl, hgr⟩ := hg
          rw [hleft] at hrs hfr
          rw [eq_of_listShows hls hfl hgl, eq_of_listShows hrs hfr hgr]
      | star fs =>
          -- A choice leads back both ways, but one way of a loop leads on to its end.
          obtain ⟨_, htargets⟩ := OrdMap.single_inj.mp hrow
          have hsecond := (List.cons.inj (List.cons.inj htargets).2).1
          have hbound := listEntry_le rs (n + 2 * listWeight ls)
          simp only [weight] at hweight
          omega
  | .star fs, g, n, hstates, hweight, hf, hg => by
      have hrow := row_eq_of_shows hweight hf hg
      cases g with
      | char d => cases (OrdMap.single_inj.mp hrow).1
      | any => cases (OrdMap.single_inj.mp hrow).1
      | alt ls rs =>
          obtain ⟨_, htargets⟩ := OrdMap.single_inj.mp hrow
          have hsecond := (List.cons.inj (List.cons.inj htargets).2).1
          have hbound := listEntry_le rs (n + 2 * listWeight ls)
          simp only [weight] at hweight
          omega
      | star gs =>
          have hinner := List.append_inj_left' (List.cons.inj hstates).2 rfl
          rw [eq_of_listShows hinner hf.2 hg.2]

theorem eq_of_listShows {t : Table} : ∀ {fs gs : List Factor} {n : Nat},
    listStates fs n = listStates gs n → ListShows t fs n → ListShows t gs n → fs = gs
  | [], [], _, _, _, _ => rfl
  | [], g :: gs, n, hstates, _, _ => by
      obtain ⟨tail, htail⟩ := g.exists_states n
      rw [listStates, listStates, htail] at hstates
      cases hstates
  | f :: fs, [], n, hstates, _, _ => by
      obtain ⟨tail, htail⟩ := f.exists_states n
      rw [listStates, listStates, htail] at hstates
      cases hstates
  | f :: fs, g :: gs, n, hstates, hf, hg => by
      have hweight := weight_eq_of_listStates hstates
      have hlength : (f.states n).length = (g.states n).length := by
        rw [length_states, length_states, hweight]
      obtain ⟨hfirst, hrest⟩ := List.append_inj hstates hlength
      obtain ⟨hfhead, hftail⟩ := hf
      obtain ⟨hghead, hgtail⟩ := hg
      rw [hweight] at hrest hftail
      rw [eq_of_shows hfirst hweight hfhead hghead, eq_of_listShows hrest hftail hgtail]

end

end Factor

end Thompson
