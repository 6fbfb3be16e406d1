import Thompson.Proofs.Pattern.Extent

/-!
Where a reader stands when it reports a fault, whichever phrase it reads and wherever it starts.
It has taken the character that does not fit, or else its whole text. A group is blamed at the
end only: no phrase is complete inside of a group, so none ends there before its text does.
-/

namespace Thompson

namespace Pattern

variable {phrase : Phrase} {before text : Text} {fault : Fault} {place : Cursor Char}

/-- The faults of the end of the input. A group that is blamed was opened by this reader. -/
theorem reportedAt_of_finish {p : Progress}
    (hrun : Progress.start.through? before.length text = some p)
    (hfinish : p.finish (before.length + text.length) = .error fault) :
    fault.ReportedAt (before ++ text) before.length ⟨[], before.length + text.length⟩ := by
  rw [← List.length_append] at hfinish ⊢
  rcases finish_eq_error_iff.mp hfinish with ⟨-, rfl⟩ | ⟨group, frame, outer, -, henclosing, rfl⟩
  · exact ⟨rfl, rfl⟩
  · have hholds : p.Holds before.length text :=
      Progress.holds_through (Progress.holds_start before.length) hrun
    obtain ⟨u, v, rfl, hopened, -⟩ := innermost_of_holds hholds henclosing
    rw [← List.length_append] at hopened
    refine ⟨?_, ?_, rfl⟩
    · rw [hopened, List.length_append]
      exact Nat.le_add_right _ _
    · rw [hopened, ← List.append_assoc]
      simp

/-- The fault of a character that does not fit. -/
theorem reportedAt_misplaced (before w : Text) (c : Char) (rest : Text) :
    (Fault.misplaced c (before.length + w.length)).ReportedAt (before ++ (w ++ c :: rest))
      before.length ⟨rest, before.length + w.length + 1⟩ := by
  refine ⟨Nat.le_add_right _ _, ?_, ?_⟩
  · rw [← List.append_assoc, ← List.length_append]
    simp
  · have hdrop : (before ++ (w ++ c :: rest)).drop (before.length + w.length + 1) = rest := by
      rw [Nat.add_assoc, List.drop_length_add_append, List.drop_length_add_append]
      rfl
    rw [hdrop]

theorem reportedAt_of_read (h : phrase.read ⟨text, before.length⟩ = (.error fault, place)) :
    fault.ReportedAt (before ++ text) before.length place := by
  obtain ⟨w, rest, p, rfl, hrun, hstops⟩ := exists_stops phrase .start before.length text
  change phrase.readOn .start before.length (w ++ rest) = _ at h
  -- Cases need the result as a variable, since the first way to stop may succeed or fail.
  generalize phrase.readOn .start before.length (w ++ rest) = result at h hstops
  cases hstops with
  | exhausted =>
      obtain ⟨hfinish, rfl⟩ := Prod.mk.inj h
      rw [List.append_nil]
      exact reportedAt_of_finish hrun hfinish
  | complete hgoesOn hcomplete => cases h
  | stuck hadvance =>
      cases h
      exact reportedAt_misplaced before w _ _

/-- A reader that fails blames a character and stands behind it, or it has read the stream to its
end, where an item is missing or a group that it opened is left open. -/
theorem failed_read_reported (phrase : Phrase) {stream : Text} {start : Nat}
    (hstart : start ≤ stream.length) {fault : Fault} {place : Cursor Char}
    (h : phrase.read ((Cursor.ofList stream).skip start) = (.error fault, place)) :
    fault.ReportedAt stream start place := by
  have hlength : (stream.take start).length = start := List.length_take_of_le hstart
  rw [skip_ofList hstart] at h
  have hread : phrase.read ⟨stream.drop start, (stream.take start).length⟩ =
      (.error fault, place) := by
    rw [hlength]
    exact h
  have hreported := reportedAt_of_read hread
  rw [List.take_append_drop, hlength] at hreported
  exact hreported

/-- One stream fails in all three ways, according to the place where the reader starts. -/
theorem nested_groups_reported :
    let stream : Text := ['a', ')', '(', '(', 'b']
    ((1 ≤ stream.length ∧ Phrase.repetition.read ((Cursor.ofList stream).skip 1) =
        (.error (.misplaced ')' 1), ⟨['(', '(', 'b'], 2⟩)) ∧
      (Fault.misplaced ')' 1).ReportedAt stream 1 ⟨['(', '(', 'b'], 2⟩) ∧
    ((2 ≤ stream.length ∧ Phrase.concatenation.read ((Cursor.ofList stream).skip 2) =
        (.error (.unclosed 3), ⟨[], 5⟩)) ∧
      (Fault.unclosed 3).ReportedAt stream 2 ⟨[], 5⟩) ∧
    ((5 ≤ stream.length ∧ Phrase.atom.read ((Cursor.ofList stream).skip 5) =
        (.error (.ended 5), ⟨[], 5⟩)) ∧
      (Fault.ended 5).ReportedAt stream 5 ⟨[], 5⟩) := by
  intro stream
  refine ⟨⟨⟨by decide, rfl⟩, ?_⟩, ⟨⟨by decide, rfl⟩, ?_⟩, ⟨⟨by decide, rfl⟩, ?_⟩⟩
  · exact failed_read_reported .repetition (by decide) rfl
  · exact failed_read_reported .concatenation (by decide) rfl
  · exact failed_read_reported .atom (by decide) rfl

end Pattern

end Thompson
