import Thompson.Pattern.Parse
import Thompson.Regex.Automaton
import Thompson.Regex.Term

/-!
The journal of a compilation: the regular expression that was read, the part of
the automaton that each node gave, operands first, and the whole automaton. A
pattern with a fault leaves no entries. The automaton is built once, and the
parts are noted as they are finished.
-/

namespace Thompson

namespace Journal

/-- Messages for everyday use, and those that follow every step. -/
inductive Level where
  | debug : Level
  | trace : Level
  deriving DecidableEq, Repr

/-- What is noted of an automaton: where it starts and accepts, and how many
states it has. -/
structure Fragment where
  start : Nat
  accept : List Nat
  size : Nat
  deriving DecidableEq, Repr

def Fragment.ofAutomaton (a : Automaton) : Fragment :=
  ⟨a.start, a.accept.toList, a.states.length⟩

inductive Entry where
  | parsed (pattern : Text) (tree : Regex) : Entry
  | fragment (part : Fragment) : Entry
  | built (whole : Automaton) : Entry

namespace Entry

def level : Entry → Level
  | .parsed _ _ | .built _ => .debug
  | .fragment _ => .trace

/-- States in braces, separated by commas, each with the name of its type. -/
def stateSet (states : List Nat) : Text :=
  let ids := states.map fun s => lit "StateId(" ++ Text.ofNat s ++ [')']
  '\x7b' :: ((ids.intersperse (lit ", ")).flatten ++ ['\x7d'])

def message : Entry → Text
  | .parsed pattern tree =>
      lit "Parsed " ++ Text.quoted '"' pattern ++ lit " into " ++ tree.term
  | .fragment part =>
      lit "Fragment " ++ stateName part.start ++ lit " -> " ++ stateSet part.accept ++
        lit " (" ++ Text.ofNat part.size ++ lit " states)"
  | .built whole =>
      lit "Built NFA with " ++ Text.ofNat whole.states.length ++
        lit " states, " ++ Text.ofNat whole.edgeCount ++
        lit " transitions, start " ++ stateName whole.start

end Entry

/-- Adds the note of an automaton that has just been finished. -/
def note (fragments : List Fragment) (built : Automaton × Names) :
    List Fragment × Automaton × Names :=
  (fragments ++ [.ofAutomaton built.1], built)

/-- Builds the automaton of a regular expression, and notes every part. -/
def build : Regex → Names → List Fragment × Automaton × Names
  | .char c, names => note [] (Automaton.single (.char c) names)
  | .any, names => note [] (Automaton.single .any names)
  | .cat l r, names =>
      let (before, first, names) := build l names
      let (after, second, names) := build r names
      note (before ++ after) (first.chain second, names)
  | .alt l r, names =>
      let (before, first, names) := build l names
      let (after, second, names) := build r names
      note (before ++ after) (first.choice second names)
  | .star r, names =>
      let (before, body, names) := build r names
      note before (body.loop names)

/-- Taking notes changes nothing in what is built, and there is one note for each
node, of the automaton that the node alone gives from its supply. -/
theorem build_eq (r : Regex) (names : Names) :
    build r names =
      ((r.parts names).map fun (part, names) => .ofAutomaton (part.build names).1,
        r.build names) := by
  induction r generalizing names with
  | char c => rfl
  | any => rfl
  | cat l r ihl ihr | alt l r ihl ihr =>
      simp only [build, note, ihl, ihr, Regex.parts, Regex.build, List.map_append, List.map_cons,
        List.map_nil]
  | star r ih =>
      simp only [build, note, ih, Regex.parts, Regex.build, List.map_append, List.map_cons,
        List.map_nil]

/-- Builds the automaton of the tree that a pattern was read as, with the entries
for it. -/
def ofTree (pattern : Text) (tree : Regex) : List Entry × Automaton :=
  let (fragments, whole, _) := build tree (.ofStart 0)
  (.parsed pattern tree :: (fragments.map .fragment ++ [.built whole]), whole)

theorem ofTree_snd (pattern : Text) (tree : Regex) :
    (ofTree pattern tree).2 = tree.automaton := by
  rw [ofTree, build_eq]
  rfl

/-- Compiles a pattern and keeps the journal of it. -/
def compile (pattern : Text) : List Entry × Except Pattern.Fault Automaton :=
  match Regex.parse pattern with
  | .error fault => ([], .error fault)
  | .ok tree =>
      let (entries, whole) := ofTree pattern tree
      (entries, .ok whole)

/-- How much of a journal is shown. -/
inductive Verbosity where
  | off : Verbosity
  | debug : Verbosity
  | trace : Verbosity
  deriving DecidableEq, Repr

def Verbosity.shows : Verbosity → Level → Bool
  | .off, _ => false
  | .debug, .debug => true
  | .debug, .trace => false
  | .trace, _ => true

def shown (verbosity : Verbosity) (entries : List Entry) : List Entry :=
  entries.filter fun entry => verbosity.shows entry.level

/-- What is shown of the journal of a pattern: messages, each with its level. -/
def lines (verbosity : Verbosity) (pattern : Text) : List (Level × Text) :=
  (shown verbosity (compile pattern).1).map fun entry => (entry.level, entry.message)

end Journal

end Thompson
