import DecisionTrace.CrossCheck
import DecisionTrace.Random.Formula
import DecisionTrace.Replay
import DecisionTrace.Report

/-!
# Collecting solved formulas

A collection is a list of random formulas with their answers and traces. Every answer can be
cross-checked with an independent solver, which is a parameter, and every trace replayed; a failed
cross-check ends the collection, a failed replay is counted. What is said on the way is returned
beside the result, and also beside an error. The number of formulas must be known as a machine word
before the first.
-/

namespace DecisionTrace

/-- What to collect. -/
structure CollectionPlan where
  minVariables : Int
  maxVariables : Int
  count : Int
  clauseLength : Int := 3
  /-- Whether every trace is replayed. -/
  replays : Bool := true
  /-- Whether every answer is cross-checked. -/
  crossChecks : Bool := true
deriving DecidableEq, Repr

/-- A formula with the answer to it. -/
structure SolvedFormula where
  formula : Formula
  outcome : Outcome
deriving DecidableEq

/-- Solved formulas with the numbers that sum them up. -/
structure Collection where
  examples : List SolvedFormula := []
  satisfiable : Nat := 0
  failures : Nat := 0
deriving DecidableEq

/-- Why a collection does not come about. -/
inductive CollectionError where
  /-- The number of formulas is too large for a machine word. -/
  | countTooLarge
  | generation (e : GenerationError)
  | crossCheck (e : CrossCheckError)
deriving DecidableEq, Repr

/-- The message of a collection that does not come about. -/
def CollectionError.message : CollectionError → String
  | .countTooLarge => "Python int too large to convert to C ssize_t"
  | .generation e => e.message
  | .crossCheck e => e.message

namespace SolvedFormula

/-- The texts of the clauses. -/
def clauseTexts (s : SolvedFormula) : List String :=
  s.formula.clauses.map Clause.render

/-- The trace as one text. -/
def traceText (s : SolvedFormula) : String :=
  renderTrace s.outcome.trace

/-- The object of a solved formula. -/
def toJson (s : SolvedFormula) : Json :=
  .object
    [("clauses", .strings s.clauseTexts),
     ("satisfiable", .bool s.outcome.verdict.isSatisfiable),
     ("assignment", s.outcome.verdict.assignmentJson),
     ("stats", s.outcome.stats.toJson),
     ("text", .string s.traceText),
     ("events", traceJson s.outcome.trace)]

end SolvedFormula

namespace Collection

/-- The number of formulas without a model. -/
def unsatisfiable (c : Collection) : Nat :=
  c.examples.length - c.satisfiable

/-- The collection with one more formula in front. -/
def withExample (c : Collection) (s : SolvedFormula) (failed : Bool) : Collection where
  examples := s :: c.examples
  satisfiable := c.satisfiable + if s.outcome.verdict.isSatisfiable then 1 else 0
  failures := c.failures + if failed then 1 else 0

/-- A random formula of a plan, with a random number of variables. -/
def drawFormula {σ : Type} [WordStream σ] (attempts : Nat) (plan : CollectionPlan) :
    Generation σ Formula := do
  let variableCount ←
    Generation.ofDraw (Draw.between attempts plan.minVariables plan.maxVariables)
  Generation.formula attempts { variableCount, clauseLength := plan.clauseLength }

/-- The random formulas of a plan, up to the first that does not come about. -/
def drawFormulas {σ : Type} [WordStream σ] (attempts : Nat) (plan : CollectionPlan) :
    (count : Nat) → StateM σ (List Formula × Option GenerationError)
  | 0 => return ([], none)
  | count + 1 => do
    match ← ExceptT.run (drawFormula attempts plan) with
    | .error e => return ([], some e)
    | .ok f =>
      let (fs, e) ← drawFormulas attempts plan count
      return (f :: fs, e)

/-- What is said about a trace that fails its replay. -/
def failureLog (failures : Nat) (r : Rejection) : List LogRecord :=
  Replay.log (r.message.toOption) ++
    [⟨.collection, .warning, "Trace verification failed (total: " ++ Text.natural failures ++ ")"⟩]

/-- The collection of given formulas, after a number of failed replays, with a solver for the
cross-checks. -/
def gather (solver : IntegerClauses → List Int → Bool) (plan : CollectionPlan) :
    (failures : Nat) → List Formula → Except CrossCheckError Collection × List LogRecord
  | _, [] => (.ok {}, [])
  | failures, f :: fs =>
    let outcome := f.solve
    let said := f.searchLog outcome
    match if plan.crossChecks then f.crossCheckWith solver outcome.verdict else .ok () with
    | .error e => (.error e, said)
    | .ok () =>
      let rejection := if plan.replays then Replay.checkOutcome f outcome else none
      let (failures, said) := match rejection with
        | some r => (failures + 1, said ++ failureLog (failures + 1) r)
        | none => (failures, said)
      match gather solver plan failures fs with
      | (.error e, more) => (.error e, said ++ more)
      | (.ok c, more) => (.ok (c.withExample ⟨f, outcome⟩ rejection.isSome), said ++ more)

/-- What is said when all traces have been replayed. -/
def closingLog (plan : CollectionPlan) (c : Collection) : List LogRecord :=
  if plan.replays then
    [⟨.collection, .info,
      "Verification complete. Total failures: " ++ Text.natural c.failures⟩]
  else []

/-- The collection of a plan from a stream of random words. A number of formulas that is too large
for a machine word is refused before anything is drawn; a negative one asks for none. -/
def collect {σ : Type} [WordStream σ] (solver : IntegerClauses → List Int → Bool)
    (attempts : Nat) (plan : CollectionPlan) (stream : σ) :
    Except CollectionError Collection × List LogRecord :=
  if Nat.pow 2 63 ≤ plan.count then (.error .countTooLarge, [])
  else
    let (fs, stopped) := ((drawFormulas attempts plan plan.count.toNat).run stream).1
    match gather solver plan 0 fs with
    | (.error e, said) => (.error (.crossCheck e), said)
    | (.ok c, said) =>
      match stopped with
      -- the formulas drawn before the failure have been solved and told about
      | some e => (.error (.generation e), said)
      | none => (.ok c, said ++ closingLog plan c)

/-- The object of a collection. -/
def toJson (c : Collection) : Json :=
  .object
    [("examples", .array (c.examples.map SolvedFormula.toJson)),
     ("n_sat", .integer c.satisfiable),
     ("n_unsat", .integer c.unsatisfiable),
     ("verification_failures", .integer c.failures)]

end Collection

end DecisionTrace
