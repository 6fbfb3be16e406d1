import Thompson.Pattern.Descent
import Thompson.Pattern.Parse
import Thompson.Proofs.Pattern.Parsing

/-!
The descent reads what the reader of one character at a time reads. Within a phrase of any kind,
the reader goes the way that a rule goes for a part of it: it fails in the same way at the same
place, or it comes to the place where the rule ends, with what the rule has read added to what it
had. What the rules keep on the stack of their calls is here the open groups of a progress.
-/

namespace Thompson

namespace Pattern

/-- The phrase may end here. -/
def Phrase.EndsAt (phrase : Phrase) (place : Cursor Char) : Prop :=
  ∀ c, place.peek = some c → phrase.EndsBefore c

/-- Reads on at a place in a text. -/
def Phrase.readFrom (phrase : Phrase) (p : Progress) (cursor : Cursor Char) :
    Except Fault Regex × Cursor Char :=
  phrase.readOn p cursor.pos cursor.rest

/-- The reader of the outer phrase has gone the way of the outcome: it fails in the same way, or
it comes to the same place with a progress that fits the tree. -/
def Outcome.Agrees (outer : Phrase) (p : Progress) (cursor : Cursor Char) (inner : Phrase)
    (fits : Regex → Progress → Prop) {n : Nat} : Outcome n → Prop
  | .failed fault place => outer.readFrom p cursor = (.error fault, place)
  | .read tree place _ =>
      inner.EndsAt place ∧ ∃ q, fits tree q ∧ outer.readFrom p cursor = outer.readFrom q place

/-- The outer phrase does not end where a part of this kind goes on. Within a group no phrase
ends at all. -/
def Phrase.Admits (outer inner : Phrase) (enclosing : List Frame) : Prop :=
  enclosing ≠ [] ∨ ∀ c, outer.EndsBefore c → inner.EndsBefore c

section Steps

variable {outer inner : Phrase} {enclosing : List Frame} {level : Level} {p q : Progress}
  {cursor place : Cursor Char} {c : Char}

theorem endsAs?_eq_none (h : enclosing ≠ [] ∨ ¬ outer.EndsBefore c) :
    Progress.endsAs? outer (.ofChar c) ⟨enclosing, level⟩ = none := by
  rcases h with henclosing | hgoesOn
  · cases enclosing with
    | nil => contradiction
    | cons frame rest =>
        rw [Progress.endsAs?]
        exact ite_self none
  · rw [← goesOn_eq_false_iff, Bool.not_eq_false] at hgoesOn
    rw [Progress.endsAs?, if_pos hgoesOn]

theorem Phrase.Admits.not_endsBefore (h : outer.Admits inner enclosing)
    (hc : ¬ inner.EndsBefore c) : enclosing ≠ [] ∨ ¬ outer.EndsBefore c :=
  h.imp_right fun hends houter => hc (hends c houter)

/-- What ends a phrase ends the tighter ones in it. -/
theorem Phrase.Admits.concatenation (h : outer.Admits .expression enclosing) :
    outer.Admits .concatenation enclosing :=
  h.imp_right fun hends c hc => Or.inr (hends c hc)

theorem Phrase.Admits.repetition (h : outer.Admits .concatenation enclosing) :
    outer.Admits .repetition enclosing := by
  refine h.imp_right fun hends c hc => ?_
  rcases hends c hc with rfl | rfl
  · decide
  · decide

theorem readFrom_step (hpop : cursor.pop = (some c, place))
    (hends : p.endsAs? outer (.ofChar c) = none)
    (hadvance : p.advance? cursor.pos (.ofChar c) = some q) :
    outer.readFrom p cursor = outer.readFrom q place := by
  obtain ⟨hrest, hpos⟩ := Cursor.pop_eq_some_iff.mp hpop
  rw [Phrase.readFrom, Phrase.readFrom, hrest, hpos, Phrase.readOn, hends, hadvance]

theorem readFrom_stuck (hpop : cursor.pop = (some c, place))
    (hends : p.endsAs? outer (.ofChar c) = none)
    (hadvance : p.advance? cursor.pos (.ofChar c) = none) :
    outer.readFrom p cursor = (.error (.misplaced c cursor.pos), place) := by
  obtain ⟨hrest, hpos⟩ := Cursor.pop_eq_some_iff.mp hpop
  rw [Phrase.readFrom, hrest, Phrase.readOn, hends, hadvance, ← hpos]

theorem readFrom_end (hrest : cursor.rest = []) :
    outer.readFrom p cursor = (p.finish cursor.pos, cursor) := by
  rw [Phrase.readFrom, hrest, Phrase.readOn, ← hrest]

end Steps

namespace Outcome.Agrees

variable {outer inner next : Phrase} {p q : Progress} {cursor place : Cursor Char}
  {fits later : Regex → Progress → Prop} {n m : Nat}

/-- The way may begin with steps that the reader takes on its own. -/
theorem of_eq {outcome : Outcome n} (hstep : outer.readFrom p cursor = outer.readFrom q place)
    (h : outcome.Agrees outer q place inner fits) : outcome.Agrees outer p cursor inner fits := by
  cases outcome with
  | failed fault stop => exact hstep.trans h
  | read tree stop ahead =>
      obtain ⟨hends, r, hfits, hread⟩ := h
      exact ⟨hends, r, hfits, hstep.trans hread⟩

theorem within {outcome : Outcome n} (hle : n ≤ m) (h : outcome.Agrees outer p cursor inner fits) :
    (outcome.within hle).Agrees outer p cursor inner fits := by
  cases outcome with
  | failed fault stop => exact h
  | read tree stop ahead => exact h

/-- One way after the other. -/
theorem andThen {outcome : Outcome n}
    {rest : (tree : Regex) → (place : Cursor Char) → place.rest.length < n → Outcome m}
    (h : outcome.Agrees outer p cursor inner fits)
    (hrest : ∀ tree place ahead q, inner.EndsAt place → fits tree q →
      (rest tree place ahead).Agrees outer q place next later) :
    (outcome.andThen rest).Agrees outer p cursor next later := by
  cases outcome with
  | failed fault stop => exact h
  | read tree stop ahead =>
      obtain ⟨hends, q, hfits, hread⟩ := h
      exact (hrest tree stop ahead q hends hfits).of_eq hread

end Outcome.Agrees

/-- An item may follow: either one is missing, or the next character can only begin one and the
outer phrase does not end before it. -/
def Phrase.Awaits (outer : Phrase) (p : Progress) (cursor : Cursor Char) : Prop :=
  p.level.value? = none ∨ ∃ c, cursor.peek = some c ∧ (c ≠ '|' ∧ c ≠ ')' ∧ c ≠ '*') ∧
    (p.enclosing ≠ [] ∨ ¬ outer.EndsBefore c)

section Awaits

variable {outer : Phrase} {p q : Progress} {cursor place : Cursor Char} {c : Char}

theorem complete?_eq_none (h : p.level.value? = none) : p.complete? = none := by
  obtain ⟨enclosing, level⟩ := p
  cases enclosing with
  | nil => exact h
  | cons frame rest => rfl

/-- A reader that awaits an item does not end before the next character, whatever it is. -/
theorem Phrase.Awaits.endsAs?_eq_none (h : outer.Awaits p cursor)
    (hpop : cursor.pop = (some c, place)) : p.endsAs? outer (.ofChar c) = none := by
  have hpeek : cursor.peek = some c := by rw [← Cursor.pop_fst, hpop]
  rcases h with hvalue | ⟨d, hd, -, hends⟩
  · rw [Progress.endsAs?, complete?_eq_none hvalue]
    exact ite_self none
  · rw [hpeek] at hd
    cases hd
    exact Pattern.endsAs?_eq_none hends

/-- No character but the first of an item fits. -/
theorem Phrase.Awaits.advance?_eq_none (h : outer.Awaits p cursor)
    (hpop : cursor.pop = (some c, place)) (hopening : c ≠ '(') (hany : c ≠ '.')
    (hchar : isAlphanumeric c = false) (pos : Nat) : p.advance? pos (.ofChar c) = none := by
  have hpeek : cursor.peek = some c := by rw [← Cursor.pop_fst, hpop]
  obtain ⟨enclosing, level⟩ := p
  have htoken : Token.ofChar c = if c = ')' then .closing else if c = '|' then .bar
      else if c = '*' then .star else .stray := by
    simp [Token.ofChar, hopening, hany, hchar]
  rw [htoken]
  rcases h with hvalue | ⟨d, hd, ⟨hbar, hclosing, hstar⟩, -⟩
  · cases level with
    | awaiting left =>
        split
        · rfl
        · split
          · rfl
          · split <;> rfl
    | holding left before item => cases hvalue
  · rw [hpeek] at hd
    cases hd
    rw [if_neg hclosing, if_neg hbar, if_neg hstar]
    rfl

theorem Phrase.Awaits.finish_eq (h : outer.Awaits p cursor) (hrest : cursor.rest = []) (pos : Nat) :
    p.finish pos = .error (.ended pos) := by
  rcases h with hvalue | ⟨d, hd, -⟩
  · rw [Progress.finish, hvalue]
  · rw [Cursor.peek, hrest] at hd
    cases hd

end Awaits

namespace Descent

variable {outer : Phrase}

/-- What the reader has after an item or after its stars: the last item is the new one. -/
def Added (enclosing : List Frame) (level : Level) (tree : Regex) (q : Progress) : Prop :=
  q = ⟨enclosing, level.add tree⟩

/-- What the reader has after a sequence or after alternatives: the level is the tree. -/
def Valued (enclosing : List Frame) (left : Option Regex) (tree : Regex) (q : Progress) : Prop :=
  q.enclosing = enclosing ∧ q.level.value? = some (altOnto left tree)

theorem agrees_stars {enclosing : List Frame} (hadmits : outer.Admits .repetition enclosing)
    (level : Level) (item : Regex) (cursor : Cursor Char) :
    (stars item cursor).Agrees outer ⟨enclosing, level.add item⟩ cursor .repetition
      (Added enclosing level) := by
  rw [stars]
  split
  · next place h =>
    have hshorter := length_of_popIf h
    have hends : Progress.endsAs? outer (.ofChar '*') ⟨enclosing, level.add item⟩ = none :=
      endsAs?_eq_none (hadmits.not_endsBefore fun hstar => hstar rfl)
    have hadvance : Progress.advance? cursor.pos (.ofChar '*') ⟨enclosing, level.add item⟩ =
        some ⟨enclosing, level.add (.star item)⟩ := by
      cases level <;> rfl
    exact ((agrees_stars hadmits level (.star item) place).within _).of_eq
      (readFrom_step (Cursor.popIf_eq_true_iff.mp h) hends hadvance)
  · next place h =>
    obtain ⟨hpeek, rfl⟩ := Cursor.popIf_eq_false_iff.mp h
    refine ⟨?_, _, rfl, rfl⟩
    rintro c hc rfl
    exact hpeek hc
termination_by cursor.rest.length

/-- The parenthesis that ends a group adds it to what stands outside. -/
theorem agrees_closing {enclosing : List Frame} {frame : Frame} {q : Progress} {inner : Regex}
    {cursor : Cursor Char} (hends : Phrase.expression.EndsAt cursor)
    (hvalued : Valued (frame :: enclosing) none inner q) :
    (closing frame.opened inner cursor).Agrees outer q cursor .atom
      (Added enclosing frame.outside) := by
  obtain ⟨frames, level⟩ := q
  obtain ⟨rfl, hvalue⟩ := hvalued
  have hvalue : level.value? = some inner := hvalue
  rw [closing]
  split
  · next place h =>
    have hgroup : Progress.endsAs? outer (.ofChar ')') ⟨frame :: enclosing, level⟩ = none :=
      endsAs?_eq_none (Or.inl (List.cons_ne_nil _ _))
    have hadvance : Progress.advance? cursor.pos (.ofChar ')') ⟨frame :: enclosing, level⟩ =
        some ⟨enclosing, frame.outside.add inner⟩ := by
      have htoken : Token.ofChar ')' = .closing := rfl
      rw [htoken, Progress.advance?, hvalue]
    exact ⟨fun _ _ => trivial, _, rfl,
      readFrom_step (Cursor.popIf_eq_true_iff.mp h) hgroup hadvance⟩
  · next place h =>
    obtain ⟨hpeek, rfl⟩ := Cursor.popIf_eq_false_iff.mp h
    have hrest : place.rest = [] := by
      cases hrest : place.rest with
      | nil => rfl
      | cons c rest =>
          have hc := Cursor.peek_of_rest hrest
          rw [hends c hc] at hc
          exact absurd hc hpeek
    change outer.readFrom _ _ = _
    rw [readFrom_end hrest, Progress.finish, hvalue]

-- The rules call each other, so one measure serves for their recursion and for this induction:
-- what lies ahead, and the kind of phrase where nothing has been taken yet. The open groups
-- differ from call to call, and each rule leaves those that it has found.
mutual

theorem agrees_expression {enclosing : List Frame} (hadmits : outer.Admits .expression enclosing)
    (cursor : Cursor Char) :
    (expression cursor).Agrees outer ⟨enclosing, .awaiting none⟩ cursor .expression
      (Valued enclosing none) := by
  rw [expression]
  apply (agrees_concatenation hadmits.concatenation none cursor).andThen
  intro first place ahead q hends hvalued
  exact (agrees_alternatives hadmits first place hends hvalued).within ahead
termination_by (cursor.rest.length, 3)

theorem agrees_alternatives {enclosing : List Frame}
    (hadmits : outer.Admits .expression enclosing) (left : Regex) (cursor : Cursor Char)
    {q : Progress} (hends : Phrase.concatenation.EndsAt cursor)
    (hvalued : Valued enclosing none left q) :
    (alternatives left cursor).Agrees outer q cursor .expression (Valued enclosing none) := by
  obtain ⟨enclosing, level⟩ := q
  obtain ⟨rfl, hvalue⟩ := hvalued
  have hvalue : level.value? = some left := hvalue
  rw [alternatives]
  split
  · next next h =>
    have hshorter := length_of_popIf h
    have hbar : Progress.endsAs? outer (.ofChar '|') ⟨enclosing, level⟩ = none :=
      endsAs?_eq_none (hadmits.not_endsBefore (by decide))
    have hadvance : Progress.advance? cursor.pos (.ofChar '|') ⟨enclosing, level⟩ =
        some ⟨enclosing, .awaiting (some left)⟩ := by
      have htoken : Token.ofChar '|' = .bar := rfl
      rw [htoken, Progress.advance?, Level.barred?, hvalue]
      rfl
    have hpop := Cursor.popIf_eq_true_iff.mp h
    apply Outcome.Agrees.of_eq (readFrom_step hpop hbar hadvance)
    apply (agrees_concatenation hadmits.concatenation (some left) next).andThen
    intro right place ahead q hends hvalued
    exact (agrees_alternatives hadmits (.alt left right) place hends hvalued).within _
  · next next h =>
    obtain ⟨hpeek, rfl⟩ := Cursor.popIf_eq_false_iff.mp h
    refine ⟨?_, _, ⟨rfl, hvalue⟩, rfl⟩
    intro c hc
    rcases hends c hc with rfl | hclosing
    · exact absurd hc hpeek
    · exact hclosing
termination_by (cursor.rest.length, 3)

theorem agrees_concatenation {enclosing : List Frame}
    (hadmits : outer.Admits .concatenation enclosing) (left : Option Regex)
    (cursor : Cursor Char) :
    (concatenation cursor).Agrees outer ⟨enclosing, .awaiting left⟩ cursor .concatenation
      (Valued enclosing left) := by
  rw [concatenation]
  apply (agrees_repetition hadmits.repetition (.inl rfl)).andThen
  rintro first place ahead q hends rfl
  exact (agrees_items hadmits left none first place hends).within ahead
termination_by (cursor.rest.length, 2)

theorem agrees_items {enclosing : List Frame} (hadmits : outer.Admits .concatenation enclosing)
    (left before : Option Regex) (item : Regex) (cursor : Cursor Char)
    (hends : Phrase.repetition.EndsAt cursor) :
    (items (catOnto before item) cursor).Agrees outer ⟨enclosing, .holding left before item⟩ cursor
      .concatenation (Valued enclosing left) := by
  have hstop (hplace : Phrase.concatenation.EndsAt cursor) :
      (Outcome.read (catOnto before item) cursor (Nat.lt_succ_self _)).Agrees outer
        ⟨enclosing, .holding left before item⟩ cursor .concatenation (Valued enclosing left) :=
    ⟨hplace, _, ⟨rfl, rfl⟩, rfl⟩
  rw [items]
  split
  · next hpeek => exact hstop (by simp [Phrase.EndsAt, hpeek])
  · next hpeek => exact hstop (by simp [Phrase.EndsAt, Phrase.EndsBefore, hpeek])
  · next hpeek => exact hstop (by simp [Phrase.EndsAt, Phrase.EndsBefore, hpeek])
  · next c hbar hclosing hpeek =>
    have hawaits : outer.Awaits ⟨enclosing, .holding left before item⟩ cursor :=
      Or.inr ⟨c, hpeek, ⟨hbar, hclosing, hends c hpeek⟩,
        hadmits.not_endsBefore (not_or.mpr ⟨hbar, hclosing⟩)⟩
    apply (agrees_repetition hadmits.repetition hawaits).andThen
    rintro right place ahead q hends rfl
    exact (agrees_items hadmits left (some (catOnto before item)) right place hends).within _
termination_by (cursor.rest.length, 2)

theorem agrees_repetition {enclosing : List Frame} {level : Level} {cursor : Cursor Char}
    (hadmits : outer.Admits .repetition enclosing)
    (hawaits : outer.Awaits ⟨enclosing, level⟩ cursor) :
    (repetition cursor).Agrees outer ⟨enclosing, level⟩ cursor .repetition
      (Added enclosing level) := by
  rw [repetition]
  apply (agrees_atom hawaits).andThen
  rintro item place ahead q - rfl
  exact (agrees_stars hadmits level item place).within ahead
termination_by (cursor.rest.length, 1)

theorem agrees_atom {enclosing : List Frame} {level : Level} {cursor : Cursor Char}
    (hawaits : outer.Awaits ⟨enclosing, level⟩ cursor) :
    (atom cursor).Agrees outer ⟨enclosing, level⟩ cursor .atom (Added enclosing level) := by
  rw [atom]
  split
  · next next h =>
    have hshorter := length_of_pop h
    apply Outcome.Agrees.of_eq (readFrom_step h (hawaits.endsAs?_eq_none h) rfl)
    have hgroup : outer.Admits .expression (⟨cursor.pos, level⟩ :: enclosing) :=
      Or.inl (List.cons_ne_nil _ _)
    apply (agrees_expression hgroup next).andThen
    intro inner place ahead q hends hvalued
    exact (agrees_closing hends hvalued).within _
  · next next h =>
    exact ⟨fun _ _ => trivial, _, rfl, readFrom_step h (hawaits.endsAs?_eq_none h) rfl⟩
  · next c next hopening hany h =>
    have hends := hawaits.endsAs?_eq_none h
    split
    · next hchar =>
      refine ⟨fun _ _ => trivial, _, rfl, readFrom_step h hends ?_⟩
      rw [Token.ofChar_of_isAlphanumeric hchar]
      rfl
    · next hchar =>
      apply readFrom_stuck h hends
      exact hawaits.advance?_eq_none h hopening hany (eq_false_of_ne_true hchar) _
  · next next h =>
    obtain ⟨hrest, rfl⟩ := Cursor.pop_eq_none_iff.mp h
    change outer.readFrom _ _ = _
    rw [readFrom_end hrest, hawaits.finish_eq hrest]
termination_by (cursor.rest.length, 0)

end

theorem complete?_of_added {tree : Regex} {q : Progress} (h : Added [] (.awaiting none) tree q) :
    q.complete? = some tree := by
  rw [h]
  rfl

theorem complete?_of_valued {tree : Regex} {q : Progress} (h : Valued [] none tree q) :
    q.complete? = some tree := by
  rw [Progress.complete?, h.1]
  exact h.2

end Descent

open Descent

/-- A reader stops where its own phrase is complete and may end. -/
theorem readFrom_of_complete? {phrase : Phrase} {q : Progress} {place : Cursor Char}
    {tree : Regex} (hends : phrase.EndsAt place) (hcomplete : q.complete? = some tree) :
    phrase.readFrom q place = (.ok tree, place) := by
  cases hrest : place.rest with
  | nil => rw [readFrom_end hrest, finish_eq_ok_iff.mpr hcomplete]
  | cons c rest =>
      have hpeek := Cursor.peek_of_rest hrest
      have hstop : q.endsAs? phrase (.ofChar c) = some tree :=
        endsAs?_eq_some_iff.mpr ⟨goesOn_eq_false_iff.mpr (hends c hpeek), hcomplete⟩
      rw [Phrase.readFrom, hrest, Phrase.readOn, hstop, ← hrest]

theorem result_of_agrees {phrase : Phrase} {cursor : Cursor Char}
    {fits : Regex → Progress → Prop} {n : Nat} {outcome : Outcome n}
    (h : outcome.Agrees phrase .start cursor phrase fits)
    (hfits : ∀ tree q, fits tree q → q.complete? = some tree) :
    outcome.result = phrase.read cursor := by
  cases outcome with
  | failed fault place => exact h.symm
  | read tree place ahead =>
      obtain ⟨hends, q, hq, hread⟩ := h
      rw [Phrase.read, ← Phrase.readFrom, hread, readFrom_of_complete? hends (hfits tree q hq)]
      rfl

/-- For every kind of phrase, text and place, the descent and the reader of one character at a
time give the same tree or the same fault, and stop at the same place. -/
theorem Phrase.descend_eq_read (phrase : Phrase) (cursor : Cursor Char) :
    phrase.descend cursor = phrase.read cursor := by
  have hadmits : phrase.Admits phrase [] := Or.inr fun _ h => h
  cases phrase with
  | expression =>
      exact result_of_agrees (agrees_expression hadmits cursor) fun _ _ => complete?_of_valued
  | concatenation =>
      exact result_of_agrees (agrees_concatenation hadmits none cursor)
        fun _ _ => complete?_of_valued
  | repetition =>
      exact result_of_agrees (agrees_repetition hadmits (.inl rfl)) fun _ _ => complete?_of_added
  | atom => exact result_of_agrees (agrees_atom (.inl rfl)) fun _ _ => complete?_of_added

/-- The inner group is blamed, and nothing is left to read. -/
example : Phrase.concatenation.descend ⟨['a', '(', '.', '(', 'b'], 0⟩ =
    (.error (.unclosed 3), ⟨[], 5⟩) := by
  rw [Phrase.descend_eq_read]
  rfl

end Pattern

open Pattern

/-- A pattern is scanned, read by descent as an expression, and then used up. -/
theorem Regex.parse_eq_descend (pattern : Text) :
    Regex.parse pattern = (do
      check pattern
      match Phrase.expression.descend (.ofList pattern) with
      | (.error fault, _) => .error fault
      | (.ok tree, place) =>
          match place.pop with
          | (none, _) => .ok tree
          | (some c, _) => .error (.misplaced c place.pos)) := by
  rw [Regex.parse, Phrase.descend_eq_read]
  cases check pattern with
  | error fault => rfl
  | ok passed =>
      obtain ⟨result, ⟨rest, pos⟩⟩ := Phrase.expression.read (.ofList pattern)
      cases result with
      | error fault => rfl
      | ok tree => cases rest <;> rfl

end Thompson
