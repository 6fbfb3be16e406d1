import Thompson.Proofs.Pattern.Derivation
import Thompson.Proofs.Pattern.Reading

/-!
How far the reader of a phrase goes, wherever it starts. It takes the whole of a phrase that is
followed by something that can not go on with it, since no such phrase is complete on the way.
And it takes nothing else: what it has read would begin with such a phrase, so it would have
stopped there.
-/

namespace Thompson

namespace Pattern

variable {phrase : Phrase} {pos : Nat} {w rest text : Text} {tree : Regex} {place : Cursor Char}

/-- Within a phrase, no reader is at the end of one of this kind. -/
theorem endsAs?_of_derives {u v : Text} {c : Char} {s : Progress} (h : Derives phrase w tree)
    (hw : w = u ++ c :: v) (hrun : Progress.start.through? pos u = some s) :
    s.endsAs? phrase (.ofChar c) = none := by
  cases hends : s.endsAs? phrase (.ofChar c) with
  | none => rfl
  | some part =>
      obtain ⟨hgoesOn, hcomplete⟩ := endsAs?_eq_some_iff.mp hends
      have hpart := (Progress.derives_iff_through? pos u part).mpr ⟨s, hrun, hcomplete⟩
      have hne : u ≠ [] := by
        obtain ⟨d, rest, rfl, -⟩ := exists_head_of_derives hpart
        exact List.cons_ne_nil d rest
      have hclosed := (Balanced.of_derives hpart).closes_all
      exact absurd (goesOn_eq_false_iff.mp hgoesOn) (not_endsBefore_of_derives h hw hne hclosed)

/-- A phrase is read whole if what follows it can not go on with it. -/
theorem read_of_derives (h : Derives phrase w tree) (hend : ∀ c ∈ rest.head?, phrase.EndsBefore c) :
    phrase.read ⟨w ++ rest, pos⟩ = (.ok tree, ⟨rest, pos + w.length⟩) := by
  obtain ⟨q, hrun, hcomplete⟩ :=
    (Progress.derives_iff_through? pos w tree).mp (h.loosen (Nat.zero_le _))
  have hread : phrase.read ⟨w ++ rest, pos⟩ = phrase.readOn q (pos + w.length) rest := by
    apply readOn_of_open rest hrun
    intro u c v s hw hpart
    exact endsAs?_of_derives h hw hpart
  rw [hread]
  cases rest with
  | nil => rw [Phrase.readOn, finish_eq_ok_iff.mpr hcomplete]
  | cons c rest =>
      have hgoesOn := goesOn_eq_false_iff.mpr (hend c rfl)
      rw [Phrase.readOn, endsAs?_eq_some_iff.mpr ⟨hgoesOn, hcomplete⟩]

/-- What is read is a phrase, and the reader stops before something that can not go on with it. -/
theorem derives_of_read (h : phrase.read ⟨text, pos⟩ = (.ok tree, place)) :
    ∃ w, text = w ++ place.rest ∧ place.pos = pos + w.length ∧ Derives phrase w tree ∧
      ∀ c ∈ place.rest.head?, phrase.EndsBefore c := by
  obtain ⟨w, q, rfl, hpos, hrun, hcomplete⟩ := through?_of_readOn h
  have hexpression := (Progress.derives_iff_through? pos w tree).mpr ⟨q, hrun, hcomplete⟩
  refine ⟨w, rfl, hpos, ?_, endsBefore_of_readOn h⟩
  rcases derives_or_begins hexpression phrase with hphrase | ⟨u, c, v, part, rfl, hu, hc⟩
  · exact hphrase
  · have hshort : phrase.read ⟨u ++ (c :: v ++ place.rest), pos⟩ =
        (.ok part, ⟨c :: v ++ place.rest, pos + u.length⟩) := by
      apply read_of_derives hu
      rintro d hd
      obtain rfl : c = d := Option.some.inj hd
      exact hc
    rw [← List.append_assoc, h] at hshort
    have hplace : place.pos = pos + u.length := congrArg Cursor.pos (Prod.mk.inj hshort).2
    simp at hpos
    omega

/-- The places at which a phrase is read, and what it is read as. -/
theorem read_eq_ok_iff : phrase.read ⟨text, pos⟩ = (.ok tree, place) ↔
    ∃ w, text = w ++ place.rest ∧ place.pos = pos + w.length ∧ Derives phrase w tree ∧
      ∀ c ∈ place.rest.head?, phrase.EndsBefore c := by
  constructor
  · exact derives_of_read
  · rintro ⟨w, rfl, hpos, hderives, hend⟩
    rw [read_of_derives hderives hend, ← hpos]

section Stream

variable {stream : Text} {p : Nat}

theorem skip_ofList (hp : p ≤ stream.length) :
    (Cursor.ofList stream).skip p = ⟨stream.drop p, p⟩ := by
  simp [Cursor.ofList, Cursor.skip, hp]

/-- A reader that is somewhere in a stream stops somewhere in the same stream. -/
theorem read_skip_eq_ok_iff (hp : p ≤ stream.length) :
    phrase.read ((Cursor.ofList stream).skip p) = (.ok tree, place) ↔
      p ≤ place.pos ∧ place.pos ≤ stream.length ∧ place.rest = stream.drop place.pos ∧
        Derives phrase ((stream.drop p).take (place.pos - p)) tree ∧
          ∀ c ∈ stream[place.pos]?, phrase.EndsBefore c := by
  rw [skip_ofList hp, read_eq_ok_iff]
  constructor
  · rintro ⟨w, htext, hpos, hderives, hend⟩
    have hlength : w.length + place.rest.length = stream.length - p := by
      rw [← List.length_append, ← htext, List.length_drop]
    have htake : (stream.drop p).take (place.pos - p) = w := by
      rw [hpos, Nat.add_sub_cancel_left, htext, List.take_left]
    have hrest : place.rest = stream.drop place.pos := by
      rw [hpos, ← List.drop_drop, htext, List.drop_left]
    rw [hrest, List.head?_drop] at hend
    rw [htake]
    exact ⟨by omega, by omega, hrest, hderives, hend⟩
  · rintro ⟨hle, hlength, hrest, hderives, hend⟩
    refine ⟨_, ?_, ?_, hderives, ?_⟩
    · have hdrop : stream.drop place.pos = (stream.drop p).drop (place.pos - p) := by
        rw [List.drop_drop, Nat.add_sub_cancel' hle]
      rw [hrest, hdrop, List.take_append_drop]
    · rw [List.length_take, List.length_drop]
      omega
    · rw [hrest, List.head?_drop]
      exact hend

end Stream

/-- The reader of a phrase, at a place in a stream, returns a tree and stops at another place if
and only if the stream has a phrase with this tree in between, and not one that goes on there.
So a reader that succeeds has moved on, though not past the end. -/
theorem read_maximal_phrase (phrase : Phrase) {stream : Text} {p : Nat} (hp : p ≤ stream.length) :
    (∀ tree p', (∃ rest, phrase.read ((Cursor.ofList stream).skip p) = (.ok tree, ⟨rest, p'⟩)) ↔
      p ≤ p' ∧ p' ≤ stream.length ∧ Derives phrase ((stream.drop p).take (p' - p)) tree ∧
        ∀ c ∈ stream[p']?, phrase.EndsBefore c) ∧
    ∀ tree place, phrase.read ((Cursor.ofList stream).skip p) = (.ok tree, place) →
      p < place.pos ∧ place.pos ≤ stream.length ∧ place.rest = stream.drop place.pos := by
  constructor
  · intro tree p'
    constructor
    · rintro ⟨rest, hread⟩
      obtain ⟨hle, hlength, -, hphrase⟩ := (read_skip_eq_ok_iff hp).mp hread
      exact ⟨hle, hlength, hphrase⟩
    · rintro ⟨hle, hlength, hphrase⟩
      exact ⟨stream.drop p', (read_skip_eq_ok_iff hp).mpr ⟨hle, hlength, rfl, hphrase⟩⟩
  · intro tree place hread
    obtain ⟨hle, hlength, hrest, hderives, -⟩ := (read_skip_eq_ok_iff hp).mp hread
    obtain ⟨c, w, hw, -⟩ := exists_head_of_derives hderives
    have hne : place.pos ≠ p := by
      intro hstays
      rw [hstays, Nat.sub_self, List.take_zero] at hw
      cases hw
    exact ⟨by omega, hlength, hrest⟩

/-- Two stars are one phrase, and a bar ends a concatenation but no expression. -/
theorem stars_before_bar_read :
    let stream : Text := ['(', 'a', '*', '*', '|', 'b', ')', '.']
    let tree : Regex := .star (.star (.char 'a'))
    1 ≤ stream.length ∧
      (∃ rest, Phrase.concatenation.read ((Cursor.ofList stream).skip 1) = (.ok tree, ⟨rest, 4⟩)) ∧
      ¬ ∃ other rest,
        Phrase.expression.read ((Cursor.ofList stream).skip 1) = (.ok other, ⟨rest, 4⟩) := by
  intro stream tree
  have hp : 1 ≤ stream.length := by decide
  have hderives : Derives .concatenation ['a', '*', '*'] tree :=
    .repetition (.star (w := ['a', '*']) (.star (w := ['a']) (.atom (.char rfl))))
  have hbar : ∀ c ∈ stream[4]?, Phrase.concatenation.EndsBefore c := by
    intro c hc
    obtain rfl : '|' = c := Option.some.inj hc
    exact Or.inl rfl
  refine ⟨hp, ?_, ?_⟩
  · exact ((read_maximal_phrase .concatenation hp).1 tree 4).mpr
      ⟨by decide, by decide, hderives, hbar⟩
  · rintro ⟨other, hread⟩
    obtain ⟨-, -, -, hend⟩ := ((read_maximal_phrase .expression hp).1 other 4).mp hread
    exact absurd (hend '|' rfl) (by decide)

end Pattern

end Thompson
