import Thompson.Text.Basic

/-!
What a command line asks for. Arguments are taken from left to right. The
pattern is the one argument that is no option; after a lone `--` every argument
counts as such. Options with one letter may share an argument, and an option
that takes a value has it after an equals sign, in the rest of the argument, or
in the next argument. The first thing that is wrong settles the answer, and so
does an option that asks for the version or for help.
-/

namespace Thompson

namespace Command

structure Options where
  pattern : Text
  /-- Where the document goes. -/
  output : Text
  /-- Where the digraph goes, if it is wanted. -/
  digraph : Option Text
  quiet : Bool
  deriving DecidableEq, Repr

/-- Why a command line can not be followed. -/
inductive Misuse where
  | patternMissing : Misuse
  | argumentExtra (argument : Text) : Misuse
  | optionUnknown (argument : Text) : Misuse
  | optionRepeated (name : Text) : Misuse
  | valueMissing (name : Text) : Misuse
  | valueUnexpected (name : Text) : Misuse
  deriving DecidableEq, Repr

def Misuse.message : Misuse → Text
  | .patternMissing => lit "error: a pattern is required"
  | .argumentExtra argument => lit "error: unexpected argument '" ++ argument ++ ['\'']
  | .optionUnknown argument => lit "error: unknown option '" ++ argument ++ ['\'']
  | .optionRepeated name => lit "error: '" ++ name ++ lit "' is given more than once"
  | .valueMissing name => lit "error: '" ++ name ++ lit "' needs a value"
  | .valueUnexpected name => lit "error: '" ++ name ++ lit "' takes no value"

inductive Request where
  | compile (options : Options) : Request
  | version : Request
  | help : Request
  deriving DecidableEq, Repr

/-- The options that take a value. -/
inductive Setting where
  | output : Setting
  | digraph : Setting
  deriving DecidableEq, Repr

/-- The options that take none. -/
inductive Switch where
  | quiet : Switch
  | version : Switch
  | help : Switch
  deriving DecidableEq, Repr

def Setting.name : Setting → Text
  | .output => lit "--output"
  | .digraph => lit "--dot"

def Switch.name : Switch → Text
  | .quiet => lit "--quiet"
  | .version => lit "--version"
  | .help => lit "--help"

/-- A step that one argument asks for. -/
inductive Step where
  | switch (switch : Switch) : Step
  /-- Without a value, the next argument is the value. -/
  | setting (setting : Setting) (value : Option Text) : Step
  | pattern (text : Text) : Step
  | misuse (misuse : Misuse) : Step
  deriving DecidableEq, Repr

/-- The steps of a group of letters after a single dash. -/
def letterSteps (argument : Text) : Text → List Step
  | [] => []
  | 'q' :: rest => .switch .quiet :: letterSteps argument rest
  | 'V' :: rest => .switch .version :: letterSteps argument rest
  | 'h' :: rest => .switch .help :: letterSteps argument rest
  | ['o'] => [.setting .output none]
  | 'o' :: '=' :: value => [.setting .output (some value)]
  | 'o' :: value => [.setting .output (some value)]
  | _ :: _ => [.misuse (.optionUnknown argument)]

/-- The step of a name after two dashes, with what followed an equals sign. -/
def wordStep (argument name : Text) (value : Option Text) : Step :=
  if name = lit "output" then .setting .output value
  else if name = lit "dot" then .setting .digraph value
  else
    let plain (switch : Switch) : Step :=
      match value with
      | none => .switch switch
      | some _ => .misuse (.valueUnexpected switch.name)
    if name = lit "quiet" then plain .quiet
    else if name = lit "version" then plain .version
    else if name = lit "help" then plain .help
    else .misuse (.optionUnknown argument)

/-- The steps of an argument that may be an option. A lone dash is none. -/
def steps (argument : Text) : List Step :=
  match argument with
  | '-' :: '-' :: word =>
      let name := word.takeWhile (· ≠ '=')
      let value :=
        match word.dropWhile (· ≠ '=') with
        | [] => none
        | _ :: value => some value
      [wordStep argument name value]
  | '-' :: letter :: letters => letterSteps argument (letter :: letters)
  | text => [.pattern text]

/-- What has been asked for so far. -/
structure Draft where
  pattern : Option Text
  output : Option Text
  digraph : Option Text
  quiet : Bool
  /-- The option whose value is the next argument. -/
  pending : Option Setting
  /-- Whether no more options follow. -/
  plain : Bool
  deriving DecidableEq, Repr

/-- What ends the reading of a command line early. -/
inductive Stop where
  | version : Stop
  | help : Stop
  | misuse (misuse : Misuse) : Stop
  deriving DecidableEq, Repr

namespace Draft

def empty : Draft := ⟨none, none, none, false, none, false⟩

def setPattern (text : Text) (draft : Draft) : Except Stop Draft :=
  match draft.pattern with
  | some _ => .error (.misuse (.argumentExtra text))
  | none => .ok { draft with pattern := some text }

def given? (draft : Draft) : Setting → Option Text
  | .output => draft.output
  | .digraph => draft.digraph

/-- No option may be set twice, and an empty text is no value. -/
def set (setting : Setting) (value : Text) (draft : Draft) : Except Stop Draft :=
  if (draft.given? setting).isSome then .error (.misuse (.optionRepeated setting.name))
  else if value = [] then .error (.misuse (.valueMissing setting.name))
  else
    match setting with
    | .output => .ok { draft with output := some value, pending := none }
    | .digraph => .ok { draft with digraph := some value, pending := none }

def step (draft : Draft) : Step → Except Stop Draft
  | .switch .version => .error .version
  | .switch .help => .error .help
  | .switch .quiet =>
      if draft.quiet then .error (.misuse (.optionRepeated Switch.quiet.name))
      else .ok { draft with quiet := true }
  | .setting setting (some value) => draft.set setting value
  | .setting setting none => .ok { draft with pending := some setting }
  | .pattern text => draft.setPattern text
  | .misuse misuse => .error (.misuse misuse)

/-- Takes the next argument. -/
def take (draft : Draft) (argument : Text) : Except Stop Draft :=
  match draft.pending with
  | some setting =>
      if argument.head? = some '-' ∧ argument ≠ ['-'] then
        .error (.misuse (.valueMissing setting.name))
      else draft.set setting argument
  | none =>
      if draft.plain then draft.setPattern argument
      else if argument = ['-', '-'] then .ok { draft with plain := true }
      else (steps argument).foldlM step draft

/-- The document goes to a file of a fixed name unless another is given. -/
def finish (draft : Draft) : Except Stop Options :=
  match draft.pending, draft.pattern with
  | some setting, _ => .error (.misuse (.valueMissing setting.name))
  | none, none => .error (.misuse .patternMissing)
  | none, some pattern =>
      .ok {
        pattern
        output := draft.output.getD (lit "nfa.json")
        digraph := draft.digraph
        quiet := draft.quiet }

end Draft

/-- Reads the arguments of a command line. -/
def Request.ofArguments (arguments : List Text) : Except Misuse Request :=
  match arguments.foldlM Draft.take Draft.empty >>= Draft.finish with
  | .ok options => .ok (.compile options)
  | .error .version => .ok .version
  | .error .help => .ok .help
  | .error (.misuse misuse) => .error misuse

end Command

end Thompson
