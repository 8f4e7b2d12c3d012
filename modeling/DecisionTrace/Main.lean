import DecisionTrace.CommandLine.Solve

/-!
# The command

The solving program on the files of the system. Only the file that the command line names is read,
and what the program leaves behind is printed as it is.
-/

namespace DecisionTrace.Command

/-- The fault behind an error of the system. -/
def faultOf : IO.Error → FileFault
  | .noFileOrDirectory .. => .noSuchFile
  | .alreadyExists .. => .alreadyThere
  | .inappropriateType .. => .notDirectory
  | .resourceExhausted .. => .nameTooLong
  | _ => .noSuchFile

/-- The text of a file of the system. -/
def readFile (path : String) : IO (Except FileError String) := do
  if path.contains '\x00' then return .error .nullByte
  try
    match String.fromUTF8? (← IO.FS.readBinFile path) with
    | some text => return .ok text
    | none => return .error .notText
  catch e => return .error (.system (faultOf e) path)

/-- The text of the file that a command line names, if it names one. -/
def namedFile (arguments : List String) : IO (Except FileError String) := do
  match SolveRequest.grammar.parse arguments with
  | .error _ => return .ok ""
  | .ok line =>
    match (SolveRequest.ofLine line).file with
    | none => return .ok ""
    | some path => readFile path

/-- One run of the command. -/
def run (arguments : List String) : IO UInt32 := do
  let content ← namedFile arguments
  match SolveRequest.program (fun _ => content) arguments with
  | .ok (output, _) =>
    (← IO.getStdout).putStr output.stdout
    (← IO.getStderr).putStr output.stderr
    return UInt32.ofNat (output.status.getD 0)
  | .error e =>
    (← IO.getStderr).putStrLn e.message
    return 1

end DecisionTrace.Command

/-- The solving program on the files of the system. -/
def main (arguments : List String) : IO UInt32 :=
  DecisionTrace.Command.run arguments
