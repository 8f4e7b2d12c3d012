import DecisionTrace.CommandLine.Output
import DecisionTrace.Files.Tree
import DecisionTrace.Report
import DecisionTrace.Text.Lines

/-!
# The solving program

The program takes clauses as operands and from a file, solves them, and prints the formula, the
trace and the answer, or all of it as one JSON object. With neither clauses nor a file it solves a
small example. The exit status tells the answer, a clause that cannot be read, or a file that cannot
be opened; the options for printing never change it.

The file system is a parameter: a function from paths to texts.
-/

namespace DecisionTrace

/-- What the solving program is asked for. -/
structure SolveRequest where
  clauses : List String := []
  file : Option String := none
  json : Bool := false
  quiet : Bool := false
  debug : Bool := false
deriving DecidableEq, Repr

/-- How the solving program ends. -/
inductive SolveStatus where
  | satisfiable
  | unsatisfiable
  | badClause
  | unreadableFile
deriving DecidableEq, Repr

/-- The exit status as a number. -/
def SolveStatus.code : SolveStatus → Nat
  | .satisfiable => 0
  | .unsatisfiable => 1
  | .badClause => 2
  | .unreadableFile => 3

/-- What the solving program says: its status, what it prints, and the records of its run. -/
structure SolveReply where
  status : SolveStatus
  stdout : String := ""
  records : List LogRecord := []
deriving DecidableEq, Repr

/-- The formula that is solved when none is given. -/
def exampleClauses : List String :=
  ["(A ∨ B)", "(¬A ∨ C)", "(¬B ∨ ¬C)"]

namespace SolveReply

/-- The answer to a formula as one JSON object. -/
def json (texts : List String) (o : Outcome) : String :=
  (Json.object
    [("clauses", .strings texts),
     ("satisfiable", .bool o.verdict.isSatisfiable),
     ("assignment", o.verdict.assignmentJson),
     ("stats", o.stats.toJson),
     ("trace", traceJson o.trace)]).render ++ "\n"

/-- The lines that show a trace. -/
def traceLines (o : Outcome) : List String :=
  ["", "=== TRACE ==="] ++ o.lines.map fun line => "  " ++ line

/-- The lines that show an answer. -/
def answerLines (o : Outcome) : List String :=
  ["", "=== RESULT ==="] ++
    (match o.verdict with
      | .satisfiable a _ => ["SATISFIABLE", "Assignment: " ++ a.render]
      | .unsatisfiable => ["UNSATISFIABLE"]) ++
    ["Decisions: " ++ Text.natural o.stats.decisions ++ ", backtracks: " ++
      Text.natural o.stats.backtracks ++ ", propagations: " ++
      Text.natural o.stats.propagations ++ ", conflicts: " ++ Text.natural o.stats.conflicts]

/-- The answer to a formula as text. -/
def text (f : Formula) (o : Outcome) (quiet : Bool) : String :=
  let lines := ["Formula: " ++ f.render] ++ (if quiet then [] else traceLines o) ++ answerLines o
  String.join (lines.map (· ++ "\n"))

/-- The reply to a formula. -/
def ofFormula (r : SolveRequest) (texts : List String) (f : Formula) : SolveReply :=
  let o := f.solve
  { status := if o.verdict.isSatisfiable then .satisfiable else .unsatisfiable
    stdout := if r.json then json texts o else text f o r.quiet
    records := f.readLog ++ f.searchLog o }

/-- The reply to a list of clause texts. -/
def ofTexts (r : SolveRequest) (texts : List String) : SolveReply :=
  match Formula.read texts with
  | .ok f => ofFormula r texts f
  | .error e => { status := .badClause, records := [⟨.command, .error, e.message⟩] }

/-- The records that are shown: all of them on demand, otherwise from warnings on. -/
def shown (debug : Bool) (records : List LogRecord) : List LogRecord :=
  records.filter fun r => debug || r.level = .warning || r.level = .error

/-- What the program leaves behind. -/
def output (reply : SolveReply) (debug : Bool) : ProgramOutput where
  stdout := reply.stdout
  stderr := String.join ((shown debug reply.records).map LogRecord.line)
  status := some reply.status.code

end SolveReply

namespace SolveRequest

/-- The command line of the program. -/
def grammar : Grammar where
  program := "solve.py"
  usage := "usage: solve.py [-h] [--file FILE] [--json] [--quiet] [--debug] [clauses ...]\n"
  details := String.join
    ["DPLL SAT solver with decision trace\n",
     "\n",
     "positional arguments:\n",
     "  clauses      Clauses such as \"(A ∨ ¬B)\" or \"(A | !B)\"\n",
     "\n",
     "options:\n",
     "  -h, --help   show this help message and exit\n",
     "  --file FILE  Read clauses from a file, one per line ('#' starts a comment)\n",
     "  --json       Print the result as JSON\n",
     "  --quiet      Do not print the trace\n",
     "  --debug      Log every solver event\n"]
  options :=
    [⟨["-h", "--help"], .help⟩, ⟨["--file"], .value⟩, ⟨["--json"], .flag⟩, ⟨["--quiet"], .flag⟩,
     ⟨["--debug"], .flag⟩]
  takesOperands := true

/-- What a command line asks for; a missing or empty file name counts as none. -/
def ofLine (line : ParsedLine) : SolveRequest where
  clauses := line.operands
  file := (line.last? "--file").join.filter (· ≠ "")
  json := line.has "--json"
  quiet := line.has "--quiet"
  debug := line.has "--debug"

/-- The clause texts in the text of a file. -/
def fileClauses (content : String) : List String :=
  clauseLines ((Text.lines content.toList).map String.ofList)

/-- The clause texts to solve: those of the operands, then those of the file. -/
def clauseTexts (read : String → Except FileError String) (r : SolveRequest) :
    Except FileError (List String) :=
  match r.file with
  | none => .ok (if r.clauses.isEmpty then exampleClauses else r.clauses)
  | some path =>
    match read path with
    | .ok content => .ok (r.clauses ++ fileClauses content)
    | .error e => .error e

/-- The reply to a request. A file that the system refuses is part of the reply; a file that is no
text is not. -/
def reply (read : String → Except FileError String) (r : SolveRequest) :
    Except FileError SolveReply :=
  match r.clauseTexts read with
  | .ok texts => .ok (.ofTexts r texts)
  | .error e =>
    match e with
    -- only what the system refuses has a status of its own
    | .system _ _ =>
      .ok
        { status := .unreadableFile
          records := [⟨.command, .error, "Cannot read clause file: " ++ e.message⟩] }
    | _ => .error e

/-- The program, from its command line to what it leaves behind, with the records of its run. -/
def program (read : String → Except FileError String) (texts : List String) :
    Except FileError (ProgramOutput × List LogRecord) :=
  match grammar.parse texts with
  | .error stop => .ok (grammar.stopOutput stop, [])
  | .ok line =>
    let r := ofLine line
    match r.reply read with
    | .ok reply => .ok (reply.output r.debug, reply.records)
    | .error e => .error e

end SolveRequest

end DecisionTrace
