import DecisionTrace.Json.Printer
import DecisionTrace.Search

/-!
# JSON forms of events and answers

Fields stand in a fixed order; the kind of an event comes last in its object, and the kind of a
branch before its depth.
-/

namespace DecisionTrace

/-- The word for the kind of a branch. -/
def BranchKind.tag : BranchKind → String
  | .attempt => "try"
  | .backtrack => "backtrack"

/-- The word for the kind of an action. -/
def Action.tag : Action → String
  | .propagate _ _ => "unit_propagation"
  | .conflict _ => "conflict"
  | .allSatisfied => "all_satisfied"
  | .branch _ _ _ => "branch"

/-- The fields of an action. -/
def Action.fields : Action → List (String × Json)
  | .propagate name value => [("variable", .string name), ("value", .bool value)]
  | .conflict clause => [("clause_index", .integer clause)]
  | .allSatisfied => []
  | .branch kind name value =>
    [("variable", .string name), ("value", .bool value), ("kind", .string kind.tag)]

/-- The object of an event. -/
def Event.toJson (e : Event) : Json :=
  .object (e.action.fields ++
    [("depth", .integer e.depth), ("event", .string e.action.tag)])

/-- The list of a trace. -/
def traceJson (events : List Event) : Json :=
  .array (events.map Event.toJson)

/-- The object of the counters. -/
def Stats.toJson (s : Stats) : Json :=
  .object
    [("decisions", .integer s.decisions), ("backtracks", .integer s.backtracks),
     ("propagations", .integer s.propagations), ("conflicts", .integer s.conflicts),
     ("max_depth", .integer s.maxDepth)]

/-- The object of an assignment, in the order of binding. -/
def Assignment.toJson (a : Assignment) : Json :=
  .object (a.bindings.map fun b => (b.1, .bool b.2))

/-- The assignment of a verdict, or null. -/
def Verdict.assignmentJson (v : Verdict) : Json :=
  match v.assignment? with
  | some a => a.toJson
  | none => .null

end DecisionTrace
