import Thompson.Pattern.Blame
import Thompson.Proofs.Pattern.Viability

/-!
Faults are reported where they belong. What the reader has at the end of a text tells
which groups the text leaves open and whether an item has to follow, so the fault of the
parser is one that is located in the pattern. No other fault is: a pattern goes wrong in
one way, at one place.
-/

namespace Thompson

namespace Pattern

/-- Only an opening parenthesis or a bar leaves an item missing. -/
theorem awaitsItem_iff {w : Text} {p : Progress} (hrun : Progress.start.through? 0 w = some p) :
    AwaitsItem w ↔ p.level.value? = none := by
  rcases List.eq_nil_or_concat w with rfl | ⟨u, c, rfl⟩
  · obtain rfl := Option.some.inj hrun
    exact ⟨fun _ => rfl, fun _ => Or.inl rfl⟩
  · have hlast : AwaitsItem (u.concat c) ↔ c = '(' ∨ c = '|' := by simp [AwaitsItem]
    rw [List.concat_eq_append, Progress.through?_append] at hrun
    rw [hlast]
    obtain ⟨q, -, hstep⟩ := Option.bind_eq_some_iff.mp hrun
    obtain ⟨next, hnext, hdone⟩ := Option.bind_eq_some_iff.mp hstep
    obtain rfl := Option.some.inj hdone
    cases Progress.advance?_eq_some_iff.mp hnext with
    | opening => simp [Level.value?]
    | @closing frame outer level group hvalue =>
        obtain ⟨whole, hwhole⟩ := frame.outside.exists_value?_add group
        simp [hwhole]
    | bar hbar =>
        obtain ⟨choices, -, rfl⟩ := Option.map_eq_some_iff.mp hbar
        simp [Level.value?]
    | @star enclosing level starred hstar =>
        obtain ⟨whole, hwhole⟩ : ∃ whole, starred.value? = some whole := by
          cases level with
          | awaiting left => cases hstar
          | holding left before item =>
              obtain rfl := Option.some.inj hstar
              exact ⟨_, rfl⟩
        simp [hwhole]
    | @item enclosing level c r hitem =>
        obtain ⟨whole, hwhole⟩ := level.exists_value?_add r
        obtain ⟨hopening, -, -, hbar⟩ := ne_of_item hitem
        simp [hwhole, hopening, hbar]

section Located

variable {pattern w : Text} {p : Progress} {fault other : Fault}

theorem located_misplaced {c : Char} {rest : Text}
    (hrun : Progress.start.through? 0 w = some p)
    (hstuck : p.advance? w.length (.ofChar c) = none)
    (hstars : ¬ ['*', '*'] <:+: w) : (Fault.misplaced c w.length).Located (w ++ c :: rest) := by
  have htake : (w ++ c :: rest).take (w.length + 1) = w ++ [c] := by
    rw [List.append_cons]
    exact List.take_left' (by simp)
  refine ⟨?_, ?_, ?_⟩
  · rw [List.getElem?_append_right (Nat.le_refl _), Nat.sub_self]
    rfl
  · rw [List.take_left]
    exact viable_of_through? hrun hstars
  · rw [htake]
    exact not_viable_of_stuck hrun hstuck

theorem located_unclosed {frame : Frame} {outer : List Frame} {group : Regex}
    (hrun : Progress.start.through? 0 w = some p) (henclosing : p.enclosing = frame :: outer)
    (hvalue : p.level.value? = some group) (hstars : ¬ ['*', '*'] <:+: w) :
    (Fault.unclosed frame.opened).Located w := by
  have hholds : p.Holds 0 w := Progress.holds_through (Progress.holds_start 0) hrun
  have hopen : w.count '(' - w.count ')' = p.enclosing.length := by
    rw [count_of_holds hholds]
    omega
  have hawaits : ¬ AwaitsItem w := by
    rw [awaitsItem_iff hrun, hvalue]
    exact Option.some_ne_none group
  have hclosed := parse_closing hrun hvalue hstars
  rw [← hopen] at hclosed
  obtain ⟨u, v, rfl, hopened, hv⟩ := innermost_of_holds hholds henclosing
  rw [hopened, Nat.zero_add]
  refine ⟨viable_of_through? hrun hstars, hawaits, ?_, ?_, hclosed⟩
  · rw [List.getElem?_append_right (Nat.le_refl _), Nat.sub_self]
    rfl
  · have hdrop : (u ++ '(' :: v).drop (u.length + 1) = v := by
      rw [List.append_cons]
      exact List.drop_left' (by simp)
    rw [hdrop]
    exact hv

/-- A fault of the phrases is located in its pattern. -/
theorem located_of_parse (hcheck : check pattern = .ok ())
    (hparse : Regex.parse pattern = .error fault) : fault.Located pattern := by
  have hstars : ¬ ['*', '*'] <:+: pattern := not_doubled_of_check hcheck
  obtain ⟨w, x, p, rfl, hrun, hstop⟩ := exists_stop .start 0 pattern
  cases x with
  | nil =>
      rw [List.append_nil] at hcheck hparse hstars ⊢
      rw [parse_of_through? hcheck hrun, finish_eq_error_iff] at hparse
      rcases hparse with ⟨hvalue, rfl⟩ | ⟨group, frame, outer, hvalue, henclosing, rfl⟩
      · exact ⟨rfl, viable_of_through? hrun hstars, (awaitsItem_iff hrun).mpr hvalue⟩
      · exact located_unclosed hrun henclosing hvalue hstars
  | cons c rest =>
      have hstuck := hstop c rfl
      rw [Nat.zero_add] at hstuck
      rw [parse_of_stuck hcheck hrun hstuck] at hparse
      obtain rfl := Except.error.inj hparse
      apply located_misplaced hrun hstuck
      intro hdoubled
      exact hstars (hdoubled.trans (List.prefix_append _ _).isInfix)

theorem Viable.take_le {k n : Nat} (hk : k ≤ n) (h : Viable (pattern.take n)) :
    Viable (pattern.take k) := by
  obtain ⟨rest, hrest⟩ := List.take_prefix_take_left (l := pattern) hk
  rw [← hrest] at h
  exact h.of_append

theorem Viable.take {text : Text} (h : Viable text) (k : Nat) : Viable (text.take k) := by
  rw [← List.take_append_drop k text] at h
  exact h.of_append

private theorem misplaced_le {c d : Char} {pos pos' : Nat}
    (h : (Fault.misplaced c pos).Located pattern) (h' : (Fault.misplaced d pos').Located pattern) :
    pos ≤ pos' := by
  apply Nat.le_of_not_lt
  intro hlt
  exact h'.2.2 (h.2.1.take_le hlt)

private theorem unclosed_le {pos pos' : Nat} (h : (Fault.unclosed pos).Located pattern)
    (h' : (Fault.unclosed pos').Located pattern) : pos' ≤ pos := by
  obtain ⟨-, -, -, hrest, -⟩ := h
  obtain ⟨-, -, hopening, hrest', -⟩ := h'
  apply Nat.le_of_not_lt
  intro hlt
  exact Balanced.not_of_open hlt hopening hrest' hrest

/-- A pattern goes wrong in one way, at one place. -/
theorem Fault.Located.unique (h : fault.Located pattern) (hother : other.Located pattern) :
    fault = other := by
  cases fault with
  | unopened pos => exact h.elim
  | doubled operator pos => exact h.elim
  | misplaced c pos =>
      cases other with
      | unopened pos' => exact hother.elim
      | doubled operator pos' => exact hother.elim
      | misplaced d pos' =>
          obtain rfl := Nat.le_antisymm (misplaced_le h hother) (misplaced_le hother h)
          have hchar := h.1.symm.trans hother.1
          rw [Option.some.inj hchar]
      | ended pos' => exact absurd (hother.2.1.take _) h.2.2
      | unclosed pos' => exact absurd (hother.1.take _) h.2.2
  | ended pos =>
      cases other with
      | unopened pos' => exact hother.elim
      | doubled operator pos' => exact hother.elim
      | misplaced d pos' => exact absurd (h.2.1.take _) hother.2.2
      | ended pos' => rw [h.1, hother.1]
      | unclosed pos' => exact absurd h.2.2 hother.2.1
  | unclosed pos =>
      cases other with
      | unopened pos' => exact hother.elim
      | doubled operator pos' => exact hother.elim
      | misplaced d pos' => exact absurd (h.1.take _) hother.2.2
      | ended pos' => exact absurd hother.2.2 h.2.1
      | unclosed pos' =>
          rw [Nat.le_antisymm (unclosed_le hother h) (unclosed_le h hother)]

theorem value?_of_complete? {tree : Regex} (h : p.complete? = some tree) :
    p.level.value? = some tree := by
  obtain ⟨enclosing, level⟩ := p
  cases enclosing with
  | nil => exact h
  | cons frame outer => cases h

/-- Nothing is wrong with a pattern that is accepted. -/
theorem Fault.Located.not_accepted (h : fault.Located pattern) (tree : Regex) :
    Regex.parse pattern ≠ .ok tree := by
  intro hparse
  obtain ⟨-, hderives⟩ := parse_eq_ok_iff_derives.mp hparse
  cases fault with
  | unopened pos => exact h
  | doubled operator pos => exact h
  | misplaced c pos =>
      have hviable : Viable pattern := ⟨[], tree, by rw [List.append_nil, hparse]⟩
      exact h.2.2 (hviable.take _)
  | ended pos =>
      obtain ⟨p, hrun, hcomplete⟩ := (Progress.derives_iff_through? 0 _ tree).mp hderives
      have hmissing := (awaitsItem_iff hrun).mp h.2.2
      rw [value?_of_complete? hcomplete] at hmissing
      contradiction
  | unclosed pos =>
      obtain ⟨-, -, hopening, hrest, -⟩ := h
      have hnot := Balanced.not_of_open (Nat.zero_le pos) hopening hrest
      exact hnot (Balanced.of_derives hderives)

end Located

end Pattern

open Pattern

/-- Of a pattern that passes the scan, the parser reports the fault that is located in it,
and it reports none if there is none. -/
theorem Regex.parse_error_iff_located {pattern : Text} (hcheck : check pattern = .ok ())
    (fault : Fault) : Regex.parse pattern = .error fault ↔ fault.Located pattern := by
  constructor
  · intro hparse
    exact located_of_parse hcheck hparse
  · intro hlocated
    cases hparse : Regex.parse pattern with
    | ok tree => exact absurd hparse (hlocated.not_accepted tree)
    | error reported =>
        rw [(located_of_parse hcheck hparse).unique hlocated]

/-- Three patterns with open groups: an item is missing before a parenthesis, or at the
end, or else the inner one of the groups is blamed. -/
theorem Regex.open_group_faults_located :
    (check ['(', 'a', '|', ')'] = .ok () ∧
      (Fault.misplaced ')' 3).Located ['(', 'a', '|', ')']) ∧
    (check ['b', '(', 'a', '|'] = .ok () ∧ (Fault.ended 4).Located ['b', '(', 'a', '|']) ∧
    (check ['(', '(', 'a', ')', '(', 'b'] = .ok () ∧
      (Fault.unclosed 4).Located ['(', '(', 'a', ')', '(', 'b']) := by
  refine ⟨⟨rfl, ?_⟩, ⟨rfl, ?_⟩, ⟨rfl, ?_⟩⟩
  · exact (Regex.parse_error_iff_located rfl _).mp rfl
  · exact (Regex.parse_error_iff_located rfl _).mp rfl
  · exact (Regex.parse_error_iff_located rfl _).mp rfl

end Thompson
