import Thompson.Cursor
import Thompson.Pattern.Fault
import Thompson.Pattern.Token

/-!
Reading phrases of patterns. The reader takes one character at a time and keeps
what it has read as a `Progress`: the group that it stands in, and the groups
around it. `Progress.advance?` says what a character adds, so a phrase is read by
recursion on the input, and whether a character fits depends only on what
stands before it.
-/

namespace Thompson

namespace Pattern

/-- The kinds of phrase, from the loosest to the tightest: alternatives, a
sequence of items, an item with its stars, and an item alone. -/
inductive Phrase where
  | expression : Phrase
  | concatenation : Phrase
  | repetition : Phrase
  | atom : Phrase
  deriving DecidableEq, Repr

/-- Whether a complete phrase of this kind still takes the next character. -/
def Phrase.goesOn : Phrase → Token → Bool
  | .expression, .closing => false
  | .expression, _ => true
  | .concatenation, .bar | .concatenation, .closing => false
  | .concatenation, _ => true
  | .repetition, .star => true
  | .repetition, _ => false
  | .atom, _ => false

/-- Puts a sequence before an item, if there is a sequence. -/
def catOnto (before : Option Regex) (item : Regex) : Regex :=
  match before with
  | none => item
  | some seq => .cat seq item

/-- Puts the earlier alternatives before the last one, if there are any. -/
def altOnto (left : Option Regex) (last : Regex) : Regex :=
  match left with
  | none => last
  | some choices => .alt choices last

/-- What has been read of one group. The alternatives that a bar has ended are
`left`; of the present alternative, `before` holds all items but the last. -/
inductive Level where
  /-- An item has to follow. -/
  | awaiting (left : Option Regex) : Level
  /-- The last item is `item`, and a star would apply to it. -/
  | holding (left before : Option Regex) (item : Regex) : Level
  deriving DecidableEq, Repr

namespace Level

/-- The group as it stands, unless it still needs an item. -/
def value? : Level → Option Regex
  | .awaiting _ => none
  | .holding left before item => some (altOnto left (catOnto before item))

def add : Level → Regex → Level
  | .awaiting left, new => .holding left none new
  | .holding left before item, new => .holding left (some (catOnto before item)) new

def starred? : Level → Option Level
  | .awaiting _ => none
  | .holding left before item => some (.holding left before (.star item))

/-- The present alternative ends, and another one has to follow. -/
def barred? (level : Level) : Option Level :=
  level.value?.map fun choices => .awaiting (some choices)

end Level

/-- A group that is still open: where it was opened, and what had been read
around it. -/
structure Frame where
  opened : Nat
  outside : Level
  deriving DecidableEq, Repr

/-- The open groups, from the innermost outwards, and what has been read of the
group that the reader stands in. -/
structure Progress where
  enclosing : List Frame
  level : Level
  deriving DecidableEq, Repr

namespace Progress

def start : Progress := ⟨[], .awaiting none⟩

/-- The whole phrase, if every group is closed and no item is missing. -/
def complete? (p : Progress) : Option Regex :=
  match p.enclosing with
  | [] => p.level.value?
  | _ :: _ => none

/-- The phrase of this kind that ends before the token, if one does. -/
def endsAs? (phrase : Phrase) (token : Token) (p : Progress) : Option Regex :=
  if phrase.goesOn token then none else p.complete?

/-- What the character at the position adds, or `none` if it does not fit. -/
def advance? (pos : Nat) (token : Token) (p : Progress) : Option Progress :=
  match token with
  | .opening => some ⟨⟨pos, p.level⟩ :: p.enclosing, .awaiting none⟩
  | .item item => some { p with level := p.level.add item }
  | .star => p.level.starred?.map fun level => { p with level }
  | .bar => p.level.barred?.map fun level => { p with level }
  | .closing =>
      match p.level.value?, p.enclosing with
      | some group, frame :: outer => some ⟨outer, frame.outside.add group⟩
      | _, _ => none
  | .stray => none

/-- What the input has been read as, when it ends at the position. -/
def finish (pos : Nat) (p : Progress) : Except Fault Regex :=
  match p.level.value?, p.enclosing with
  | none, _ => .error (.ended pos)
  | some _, frame :: _ => .error (.unclosed frame.opened)
  | some tree, [] => .ok tree

end Progress

/-- Reads on until the phrase is complete and does not take the next character,
and tells where it stopped. A character that does not fit has been taken. -/
def Phrase.readOn (phrase : Phrase) (p : Progress) (pos : Nat) :
    Text → Except Fault Regex × Cursor Char
  | [] => (p.finish pos, ⟨[], pos⟩)
  | c :: rest =>
      match p.endsAs? phrase (.ofChar c) with
      | some tree => (.ok tree, ⟨c :: rest, pos⟩)
      | none =>
          match p.advance? pos (.ofChar c) with
          | some next => phrase.readOn next (pos + 1) rest
          | none => (.error (.misplaced c pos), ⟨rest, pos + 1⟩)

/-- Reads a phrase at a place in a text. -/
def Phrase.read (phrase : Phrase) (cursor : Cursor Char) : Except Fault Regex × Cursor Char :=
  phrase.readOn .start cursor.pos cursor.rest

end Pattern

end Thompson
