import Thompson.Proofs.Pattern.Parsing

/-!
Where the reader of a phrase stops. It goes on for as long as the phrase does, so an
expression that ends before its text does has a closing parenthesis ahead of it. All groups
in what has been read are closed, so this one closes none, and the scan has seen it.
-/

namespace Thompson

namespace Pattern

variable {phrase : Phrase} {p : Progress} {pos : Nat} {text : Text} {tree : Regex}
  {place : Cursor Char}

/-- A phrase that has been read does not go on with the next character. -/
theorem endsBefore_of_readOn (h : phrase.readOn p pos text = (.ok tree, place)) :
    ∀ c ∈ place.rest.head?, phrase.EndsBefore c := by
  obtain ⟨w, rest, q, rfl, -, hstops⟩ := exists_stops phrase p pos text
  generalize phrase.readOn p pos (w ++ rest) = result at h hstops
  cases hstops with
  | exhausted =>
      obtain ⟨-, rfl⟩ := Prod.mk.inj h
      intro c hc
      cases hc
  | complete hgoesOn hcomplete =>
      cases h
      intro d hd
      obtain rfl := Option.some.inj hd
      exact goesOn_eq_false_iff.mp hgoesOn
  | stuck hadvance => cases h

/-- An expression that ends before the text does ends at a parenthesis that closes no group. -/
theorem violation_of_read_expression
    (h : Phrase.expression.read (.ofList text) = (.ok tree, place)) (hmore : place.rest ≠ []) :
    Violation text place.pos := by
  obtain ⟨w, q, htext, hpos, hrun, hcomplete⟩ := through?_of_readOn h
  have htext : text = w ++ place.rest := htext
  have hpos : place.pos = w.length := hpos.trans (Nat.zero_add _)
  have hderives := (Progress.derives_iff_through? 0 w tree).mpr ⟨q, hrun, hcomplete⟩
  obtain ⟨c, rest, hrest⟩ := List.exists_cons_of_ne_nil hmore
  have hclosing : Phrase.expression.EndsBefore c := by
    apply endsBefore_of_readOn h
    rw [hrest]
    rfl
  rw [hpos, htext, hrest, violation_next_iff]
  exact Or.inl ⟨hclosing, (Balanced.of_derives hderives).closes_all.symm⟩

end Pattern

open Pattern

/-- In a pattern that passes the scan, an expression that is read is the whole pattern. So what
the parser returns is what the reader does, a tree or a fault: it never finds a character left
over that it would have to report. -/
theorem Regex.expression_read_to_end {pattern : Text} (hcheck : check pattern = .ok ()) :
    (∀ tree place, Phrase.expression.read (.ofList pattern) = (.ok tree, place) →
      place = ⟨[], pattern.length⟩) ∧
      Regex.parse pattern = (Phrase.expression.read (.ofList pattern)).1 := by
  have hend : ∀ tree place, Phrase.expression.read (.ofList pattern) = (.ok tree, place) →
      place = ⟨[], pattern.length⟩ := by
    intro tree place hread
    have hrest : place.rest = [] := by
      apply Decidable.of_not_not
      intro hmore
      exact check_eq_ok_iff.mp hcheck _ (violation_of_read_expression hread hmore)
    obtain ⟨w, q, htext, hpos, -⟩ := through?_of_readOn hread
    obtain ⟨rest, pos⟩ := place
    obtain rfl : rest = [] := hrest
    have htext : pattern = w := htext.trans (List.append_nil w)
    rw [htext]
    exact congrArg (Cursor.mk []) (hpos.trans (Nat.zero_add _))
  refine ⟨hend, ?_⟩
  rw [Regex.parse, hcheck]
  cases hread : Phrase.expression.read (.ofList pattern) with
  | mk outcome place =>
      cases outcome with
      | error fault => rfl
      | ok tree =>
          rw [hend tree place hread]
          rfl

/-- Two groups and what is around them. -/
theorem Regex.groups_read_to_end :
    let pattern : Text := ['(', 'a', '|', '(', 'b', ')', '*', ')', '.']
    check pattern = .ok () ∧
      Phrase.expression.read (.ofList pattern) =
        (.ok (.cat (.alt (.char 'a') (.star (.char 'b'))) .any), ⟨[], 9⟩) ∧
      Regex.parse pattern = .ok (.cat (.alt (.char 'a') (.star (.char 'b'))) .any) := by
  intro pattern
  have hcheck : check pattern = .ok () := rfl
  exact ⟨hcheck, rfl, (Regex.expression_read_to_end hcheck).2⟩

/-- Without the scan, an expression may end before the pattern does. -/
example : Phrase.expression.read (.ofList ['a', ')', 'b']) = (.ok (.char 'a'), ⟨[')', 'b'], 1⟩) :=
  rfl

end Thompson
