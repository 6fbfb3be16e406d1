import Thompson.Command.Program

/-!
The program. It follows the effects of a request on the real terminal and the
real files.
-/

namespace Thompson

namespace Command

/-- What the system says about a failed write, with its code. -/
def systemReason : IO.Error → String
  | .alreadyExists _ code details | .noFileOrDirectory _ code details
  | .invalidArgument _ code details | .permissionDenied _ code details
  | .resourceExhausted _ code details | .inappropriateType _ code details
  | .noSuchThing _ code details => s!"{details} (os error {code})"
  | .otherError code details | .resourceBusy code details
  | .resourceVanished code details | .unsupportedOperation code details
  | .hardwareFault code details | .unsatisfiedConstraints code details
  | .illegalOperation code details | .protocolError code details
  | .timeExpired code details | .interrupted _ code details =>
      s!"{details} (os error {code})"
  | .unexpectedEof => "unexpected end of file"
  | .userError message => message

/-- Lets effects act, up to the first that fails, and gives the report of it. -/
def act : List Effect → IO (Option Text)
  | [] => return none
  | .print text :: rest => do
      IO.print (String.ofList text)
      act rest
  | .write path content :: rest => do
      match ← (IO.FS.writeFile (String.ofList path) (String.ofList content)).toBaseIO with
      | .ok () => act rest
      | .error error =>
          return some (lit "cannot write " ++ path ++ lit ": " ++
            (systemReason error).toList)

def report (message : Text) : IO UInt32 := do
  IO.print (String.ofList (failureLine message))
  return 1

end Command

end Thompson

open Thompson Command in
/-- Reads the arguments and does what they ask for. -/
def main (arguments : List String) : IO UInt32 := do
  match Request.ofArguments (arguments.map String.toList) with
  | .error misuse =>
      IO.eprintln (String.ofList misuse.message)
      return 2
  | .ok .version =>
      IO.print (String.ofList versionText)
      return 0
  | .ok .help =>
      IO.print (String.ofList helpText)
      return 0
  | .ok (.compile options) =>
      match effects options with
      | .error fault => report fault.message
      | .ok effects =>
          match ← act effects with
          | none => return 0
          | some message => report message
