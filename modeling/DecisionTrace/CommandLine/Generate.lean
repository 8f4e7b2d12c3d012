import DecisionTrace.CommandLine.Output
import DecisionTrace.Dataset.Collection
import DecisionTrace.Dataset.Split
import DecisionTrace.Random.Twister

/-!
# The generating program

The program collects solved random formulas and writes them as a dataset. One seed decides
everything: the formulas come from one stream and the order of the dataset from a second stream
with the same seed.
-/

namespace DecisionTrace

/-- What the generating program is asked for. -/
structure GenerateRequest where
  seed : Int := 0
  directory : String := "output"
  logLevel : String := "INFO"
  minVariables : Int := 3
  maxVariables : Int := 10
  clauseLength : Int := 3
  count : Int := 2000
  replays : Bool := true
  crossChecks : Bool := true
  testSize : Int := 256
  lead : String := ""
deriving DecidableEq, Repr

/-- Why the generating program fails. -/
inductive GenerateError where
  | unknownLevel (name : String)
  | collection (e : CollectionError)
  | dataset (e : DatasetError)
deriving DecidableEq, Repr

/-- The names of the levels of logging. -/
def logLevelNames : List String :=
  ["CRITICAL", "FATAL", "ERROR", "WARN", "WARNING", "INFO", "DEBUG", "NOTSET"]

/-- The message of a level of logging that is not known. -/
def unknownLevelMessage (name : String) : String :=
  "Unknown level: " ++ Text.quoted name

namespace GenerateRequest

/-- The collection that is asked for. -/
def plan (r : GenerateRequest) : CollectionPlan where
  minVariables := r.minVariables
  maxVariables := r.maxVariables
  count := r.count
  clauseLength := r.clauseLength
  replays := r.replays
  crossChecks := r.crossChecks

/-- The line between the parts of the opening. -/
def rule : String :=
  String.ofList (List.replicate 60 '=')

/-- The lines that repeat what is asked for. -/
def openingLines (r : GenerateRequest) : List String :=
  [rule, "DPLL Trace Generation", rule,
   "  Variables: " ++ Text.integer r.minVariables ++ "-" ++ Text.integer r.maxVariables ++
     ", clause length: " ++ Text.integer r.clauseLength,
   "  Formulas: " ++ Text.integer r.count ++ ", seed: " ++ Text.integer r.seed,
   "  Verify traces: " ++ Text.capitalBool r.replays ++ ", PySAT cross-check: " ++
     Text.capitalBool r.crossChecks,
   rule]

/-- The lines that sum up a collection. -/
def summaryLines (c : Collection) : List String :=
  ["", "Collected " ++ Text.natural c.examples.length ++ " traces (" ++
    Text.natural c.satisfiable ++ " SAT, " ++ Text.natural c.unsatisfiable ++ " UNSAT)"]

/-- The lines at the end. -/
def closingLines (directory : String) : List String :=
  ["", "=== GENERATION COMPLETE ===", "Output directory: " ++ directory]

/-- What is said about failed replays. -/
def failureRecords (c : Collection) : List LogRecord :=
  if c.failures = 0 then []
  else [⟨.generation, .warning, Text.natural c.failures ++ " traces failed verification"⟩]

/-- The program in a directory of a file tree: what it prints and the tree after it, or why it
fails, with what was said until then. Verdicts are cross-checked with the solver of this library. -/
def run (r : GenerateRequest) (room : CallRoom) (attempts : Nat) (workingDirectory : String)
    (tree : FileTree) : Except GenerateError (String × FileTree) × List LogRecord :=
  if r.logLevel ∉ logLevelNames then (.error (.unknownLevel r.logLevel), [])
  else
    let directory := resolvePath r.directory workingDirectory
    let stream := Twister.ofSeed r.seed
    match Collection.collect IntegerClauses.hasModelWith attempts r.plan stream with
    | (.error e, said) => (.error (.collection e), said)
    | (.ok c, said) =>
      let said := said ++ failureRecords c
      let target : DatasetTarget := { directory, testSize := r.testSize, lead := r.lead }
      match Dataset.create room attempts tree c.toJson target stream with
      | .error e => (.error (.dataset e), said)
      | .ok (tree, more) =>
        let lines := r.openingLines ++ summaryLines c ++ closingLines directory
        (.ok (String.join (lines.map (· ++ "\n")), tree), said ++ more)

end GenerateRequest

end DecisionTrace
