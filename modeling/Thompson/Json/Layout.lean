import Thompson.Json.Basic
import Thompson.Json.Quoted

/-!
JSON documents as text, in two layouts. The compact one has no blanks. The
indented one puts every item and member on a line of its own, two blanks further
in than the brackets around it; empty brackets stay together.
-/

namespace Thompson

namespace Json

inductive Layout where
  | compact : Layout
  | indented : Layout
  deriving DecidableEq, Repr

/-- What stands before an item, and before a closing bracket. -/
def Layout.lineBreak : Layout → Nat → Text
  | .compact, _ => []
  | .indented, depth => '\n' :: Text.indent depth

/-- What stands between the name of a member and its value. -/
def Layout.colon : Layout → Text
  | .compact => [':']
  | .indented => [':', ' ']

mutual

def textAt (layout : Layout) (depth : Nat) : Json → Text
  | .str text => quote text
  | .arr [] => ['[', ']']
  | .arr (item :: items) =>
      '[' :: (layout.lineBreak (depth + 1) ++ item.textAt layout (depth + 1) ++
        itemsAt layout depth items)
  | .obj [] => ['\x7b', '\x7d']
  | .obj ((name, value) :: members) =>
      '\x7b' :: (layout.lineBreak (depth + 1) ++ quote name ++ layout.colon ++
        value.textAt layout (depth + 1) ++ membersAt layout depth members)

/-- The items after the first one, and the bracket that closes the array. -/
def itemsAt (layout : Layout) (depth : Nat) : List Json → Text
  | [] => layout.lineBreak depth ++ [']']
  | item :: items =>
      ',' :: (layout.lineBreak (depth + 1) ++ item.textAt layout (depth + 1) ++
        itemsAt layout depth items)

/-- The members after the first one, and the brace that closes the object. -/
def membersAt (layout : Layout) (depth : Nat) : List (Text × Json) → Text
  | [] => layout.lineBreak depth ++ ['\x7d']
  | (name, value) :: members =>
      ',' :: (layout.lineBreak (depth + 1) ++ quote name ++ layout.colon ++
        value.textAt layout (depth + 1) ++ membersAt layout depth members)

end

def text (layout : Layout) (value : Json) : Text := value.textAt layout 0

end Json

end Thompson
