import Thompson.Automaton.Digraph
import Thompson.Automaton.Document
import Thompson.Command.Request
import Thompson.Pattern.Parse
import Thompson.Regex.Automaton
import Thompson.Regex.Outline
import Thompson.Store

/-!
What the program does, as a list of effects. Nothing is done for a pattern with
a fault. Otherwise the outline is shown, unless that is not wanted, then the
document is written, and then the digraph. The first write that fails is the
last effect.
-/

namespace Thompson

namespace Command

inductive Effect where
  | print (text : Text) : Effect
  | write (path content : Text) : Effect
  deriving DecidableEq, Repr

inductive Failure where
  | pattern (fault : Pattern.Fault) : Failure
  | write (path : Text) (fault : Store.Fault) : Failure
  deriving DecidableEq, Repr

/-- What failed, without the cause of a failed write. -/
def Failure.summary : Failure → Text
  | .pattern fault => fault.message
  | .write path _ => lit "cannot write " ++ path

/-- What failed, and the cause. -/
def Failure.message : Failure → Text
  | .pattern fault => fault.message
  | .write path fault => lit "cannot write " ++ path ++ lit ": " ++ fault.message

/-- The effects of a successful compilation. -/
def effectsOf (options : Options) (tree : Regex) : List Effect :=
  (if options.quiet then [] else [.print (lit "AST:\n" ++ tree.outline)]) ++
    [.write options.output tree.automaton.document] ++
    match options.digraph with
    | none => []
    | some path => [.write path tree.automaton.digraph]

def effects (options : Options) : Except Pattern.Fault (List Effect) := do
  return effectsOf options (← Regex.parse options.pattern)

/-- What there is after a run. -/
structure Outcome where
  shown : Text
  store : Store
  failure : Option Failure

/-- Lets effects act on a store, up to the first that fails. -/
def perform : List Effect → Store → Outcome
  | [], store => ⟨[], store, none⟩
  | .print text :: rest, store =>
      let outcome := perform rest store
      { outcome with shown := text ++ outcome.shown }
  | .write path content :: rest, store =>
      match store.write path content with
      | .ok store => perform rest store
      | .error fault => ⟨[], store, some (.write path fault)⟩

/-- Compiles as the options say, and tells how it went. -/
def run (options : Options) (store : Store) : Outcome :=
  match effects options with
  | .ok effects => perform effects store
  | .error fault => ⟨[], store, some (.pattern fault)⟩

def versionText : Text := lit "regex-nfa 0.1.0\n"

def helpText : Text :=
  lit "Compile a regular expression into a Thompson NFA\n\n" ++
    lit "Usage: regex-nfa [OPTIONS] <REGEX>\n\n" ++
    lit "Arguments:\n" ++
    lit "  <REGEX>  Pattern built from alphanumerics, '.', '|', '*' and parentheses\n\n" ++
    lit "Options:\n" ++
    lit "  -o, --output <OUTPUT>  Where to write the NFA as JSON [default: nfa.json]\n" ++
    lit "      --dot <DOT>        Also write the NFA as a Graphviz digraph\n" ++
    lit "  -q, --quiet            Do not print the AST\n" ++
    lit "  -h, --help             Print help\n" ++
    lit "  -V, --version          Print version\n"

/-- The line that reports a failure. -/
def failureLine (message : Text) : Text := lit "Error: " ++ message ++ ['\n']

/-- What there is after the program has ended. -/
structure Ending where
  code : Nat
  shown : Text
  store : Store

/-- The exit code is zero for success, one for a failure and two for a command
line that can not be followed. -/
def invoke (arguments : List Text) (store : Store) : Ending :=
  match Request.ofArguments arguments with
  | .error _ => ⟨2, [], store⟩
  | .ok .version => ⟨0, versionText, store⟩
  | .ok .help => ⟨0, helpText, store⟩
  | .ok (.compile options) =>
      let outcome := run options store
      match outcome.failure with
      | none => ⟨0, outcome.shown, outcome.store⟩
      | some failure => ⟨1, outcome.shown ++ failureLine failure.message, outcome.store⟩

end Command

end Thompson
