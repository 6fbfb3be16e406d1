import Thompson.Proofs.Pattern.Parsing

/-!
Which texts begin a pattern: those that the reader takes to their end and that double no
star. The reader takes a pattern up to the first character that does not fit, and no
pattern goes on with that character.
-/

namespace Thompson

namespace Pattern

/-- A reader takes a text up to its end, or up to a character that does not fit. The place where
an expression is complete and ends is such a place, too. -/
theorem exists_stop (p : Progress) (pos : Nat) (text : Text) :
    ∃ w x q, text = w ++ x ∧ p.through? pos w = some q ∧
      ∀ c ∈ x.head?, q.advance? (pos + w.length) (.ofChar c) = none := by
  obtain ⟨w, x, q, htext, hrun, hstops⟩ := exists_stops .expression p pos text
  refine ⟨w, x, q, htext, hrun, ?_⟩
  generalize Phrase.expression.readOn p pos text = result at hstops
  cases hstops with
  | exhausted => simp
  | @complete c rest tree hgoesOn hcomplete =>
      intro d hd
      obtain rfl : c = d := Option.some.inj hd
      cases hadvance : q.advance? (pos + w.length) (.ofChar c) with
      | none => rfl
      | some next =>
          have hopen := endsAs?_of_takes (Progress.advance?_eq_some_iff.mp hadvance)
          rw [endsAs?_eq_some_iff.mpr ⟨hgoesOn, hcomplete⟩] at hopen
          contradiction
  | @stuck c rest hstuck =>
      intro d hd
      obtain rfl : c = d := Option.some.inj hd
      exact hstuck

section Outcome

variable {pattern w : Text} {q : Progress}

private theorem parse_of_check (hcheck : check pattern = .ok ()) :
    Regex.parse pattern =
      match Phrase.expression.readOn .start 0 pattern with
      | (.error fault, _) => .error fault
      | (.ok tree, place) =>
          match place.peek with
          | none => .ok tree
          | some c => .error (.misplaced c place.pos) := by
  unfold Regex.parse
  rw [hcheck]
  rfl

/-- A pattern that can be taken whole is judged by what the reader has at its end. -/
theorem parse_of_through? (hcheck : check pattern = .ok ())
    (hrun : Progress.start.through? 0 pattern = some q) :
    Regex.parse pattern = q.finish pattern.length := by
  have hread := readOn_of_through? [] hrun
  rw [List.append_nil, Nat.zero_add] at hread
  rw [parse_of_check hcheck, hread, Phrase.readOn]
  cases q.finish pattern.length with
  | error fault => rfl
  | ok tree => rfl

/-- A character that does not fit is blamed, whether it ends the expression or not. -/
theorem parse_of_stuck {c : Char} {rest : Text} (hcheck : check (w ++ c :: rest) = .ok ())
    (hrun : Progress.start.through? 0 w = some q)
    (hstuck : q.advance? w.length (.ofChar c) = none) :
    Regex.parse (w ++ c :: rest) = .error (.misplaced c w.length) := by
  have hread := readOn_of_through? (c :: rest) hrun
  rw [Nat.zero_add] at hread
  rw [parse_of_check hcheck, hread, Phrase.readOn, hstuck]
  cases q.endsAs? .expression (.ofChar c) with
  | none => rfl
  | some tree => rfl

end Outcome

theorem Level.exists_value?_add (level : Level) (r : Regex) :
    ∃ group, (level.add r).value? = some group := by
  cases level with
  | awaiting left => exact ⟨_, rfl⟩
  | holding left before item => exact ⟨_, rfl⟩

/-- One closing parenthesis for each open group completes the expression. -/
theorem through?_closing (enclosing : List Frame) (level : Level) (pos : Nat) {group : Regex}
    (hvalue : level.value? = some group) :
    ∃ q tree, Progress.through? pos ⟨enclosing, level⟩
        (List.replicate enclosing.length ')') = some q ∧ q.complete? = some tree := by
  induction enclosing generalizing level pos group with
  | nil => exact ⟨_, group, rfl, hvalue⟩
  | cons frame outer ih =>
      obtain ⟨whole, hwhole⟩ := frame.outside.exists_value?_add group
      obtain ⟨q, tree, hrun, hcomplete⟩ := ih (frame.outside.add group) (pos + 1) hwhole
      refine ⟨q, tree, ?_, hcomplete⟩
      have hclosing : Progress.Takes pos ⟨frame :: outer, level⟩ ')'
          ⟨outer, frame.outside.add group⟩ := .closing hvalue
      exact Progress.through?_trans (Progress.through?_char hclosing) hrun

/-- Text without a star doubles none. -/
theorem doubled_of_append {w x : Text} (hx : '*' ∉ x) (h : ['*', '*'] <:+: w ++ x) :
    ['*', '*'] <:+: w := by
  obtain ⟨a, b, hab⟩ := h
  rcases List.append_eq_append_iff.mp hab with ⟨y, rfl, -⟩ | ⟨y, hy, rfl⟩
  · exact ⟨a, y, rfl⟩
  · rcases List.eq_nil_or_concat y with rfl | ⟨start, c, rfl⟩
    · rw [List.append_nil] at hy
      exact ⟨a, [], by rw [List.append_nil, hy]⟩
    · have hlast := congrArg List.getLast? hy
      simp at hlast
      simp [← hlast] at hx

theorem Viable.of_append {u v : Text} (h : Viable (u ++ v)) : Viable u := by
  obtain ⟨rest, tree, hparse⟩ := h
  rw [List.append_assoc] at hparse
  exact ⟨v ++ rest, tree, hparse⟩

theorem parse_closing {w : Text} {p : Progress} {group : Regex}
    (hrun : Progress.start.through? 0 w = some p) (hvalue : p.level.value? = some group)
    (hstars : ¬ ['*', '*'] <:+: w) :
    ∃ tree, Regex.parse (w ++ List.replicate p.enclosing.length ')') = .ok tree := by
  obtain ⟨q, tree, hclosing, hcomplete⟩ :=
    through?_closing p.enclosing p.level (0 + w.length) hvalue
  have hall := Progress.through?_trans hrun hclosing
  refine ⟨tree, parse_eq_ok_iff_derives.mpr ⟨?_, ?_⟩⟩
  · intro hdoubled
    apply hstars
    apply doubled_of_append _ hdoubled
    intro hmem
    cases List.eq_of_mem_replicate hmem
  · exact (Progress.derives_iff_through? 0 _ tree).mpr ⟨q, hall, hcomplete⟩

/-- Whatever a reader takes can be completed to a pattern, by an item if one is missing
and a closing parenthesis for each open group. -/
theorem viable_of_through? {w : Text} {p : Progress}
    (hrun : Progress.start.through? 0 w = some p) (hstars : ¬ ['*', '*'] <:+: w) :
    Viable w := by
  -- The item is added first: it does no harm where none is missing.
  obtain ⟨group, hvalue⟩ := p.level.exists_value?_add (.char 'a')
  have hitem : Progress.Takes (0 + w.length) p 'a'
      ⟨p.enclosing, p.level.add (.char 'a')⟩ := .item (by decide)
  have hmore := Progress.through?_trans hrun (Progress.through?_char hitem)
  have hfree : ¬ ['*', '*'] <:+: w ++ ['a'] := mt (doubled_of_append (by decide)) hstars
  obtain ⟨tree, hparse⟩ := parse_closing hmore hvalue hfree
  rw [List.append_assoc] at hparse
  exact ⟨_, tree, hparse⟩

/-- After a character that does not fit, nothing can be completed. -/
theorem not_viable_of_stuck {w : Text} {c : Char} {p : Progress}
    (hrun : Progress.start.through? 0 w = some p)
    (hstuck : p.advance? w.length (.ofChar c) = none) : ¬ Viable (w ++ [c]) := by
  rintro ⟨rest, tree, hparse⟩
  obtain ⟨-, hderives⟩ := parse_eq_ok_iff_derives.mp hparse
  obtain ⟨q, hall, -⟩ := (Progress.derives_iff_through? 0 _ tree).mp hderives
  rw [List.append_assoc, Progress.through?_append, hrun, Option.bind_some, Nat.zero_add,
    List.singleton_append, Progress.through?, hstuck] at hall
  contradiction

end Pattern

end Thompson
