import DecisionTrace.Crowding
import DecisionTrace.Learning.Solver
import DecisionTrace.Parity
import DecisionTrace.Search
import DecisionTrace.Splitting

/-!
# The cross-check of a verdict

A verdict is cross-checked by asking a solver for integer clauses twice: whether the formula has a
model, and whether it has one in which the reported assignment holds.

The solver is a parameter of the check. The one of this library adds up parities and counts clauses
that crowd each other out, then searches with learning, and splits where that search gives up. It
shares nothing with the search whose verdicts it judges.
-/

namespace DecisionTrace

namespace IntegerClauses

/-- Whether some valuation of the numbered variables satisfies every clause. -/
def hasModel (cs : IntegerClauses) : Bool :=
  if cs.contradictsParity || cs.crowded then false
  else
    match Learning.Solver.decide? cs with
    | some decision => decision.val
    | none => splits cs

/-- The solver finds out whether clauses are satisfiable. -/
theorem hasModel_iff (cs : IntegerClauses) : cs.hasModel = true ↔ cs.Satisfiable := by
  unfold hasModel
  split
  · next h =>
    have hno : ¬ cs.Satisfiable := (Bool.or_eq_true _ _ ▸ h).elim
      not_satisfiable_of_contradictsParity not_satisfiable_of_crowded
    simp [hno]
  · split
    · next decision _ => exact decision.property
    · exact splits_iff cs

/-- Whether some valuation satisfies every clause and makes every assumption true. -/
def hasModelWith (cs : IntegerClauses) (assumptions : List Int) : Bool :=
  hasModel (assumptions.map (fun l => [l]) ++ cs)

end IntegerClauses

/-- Why a cross-check fails. -/
inductive CrossCheckError where
  /-- The solver and the verdict disagree on whether there is a model. -/
  | mismatch
  /-- The assignment names something that is no variable of the formula. -/
  | unknownName (name : String)
  /-- No model agrees with the assignment. -/
  | invalidSolution
deriving DecidableEq, Repr

/-- The message of a failed cross-check. -/
def CrossCheckError.message : CrossCheckError → String
  | .mismatch => "Result mismatch with PySAT"
  | .unknownName name => Text.quoted name
  | .invalidSolution => "Invalid solution"

namespace Formula

/-- The integers of bindings over an order; the first name outside the order is refused. -/
def assumptions (order : List String) :
    List (String × Bool) → Except CrossCheckError (List Int)
  | [] => .ok []
  | (name, value) :: rest =>
    if name ∉ order then .error (.unknownName name)
    else
      match assumptions order rest with
      | .error e => .error e
      | .ok ls => .ok (Literal.toInteger order ⟨name, !value⟩ :: ls)

/-- The cross-check of a verdict with a solver that decides integer clauses under assumptions. -/
def crossCheckWith (solver : IntegerClauses → List Int → Bool) (f : Formula) (v : Verdict) :
    Except CrossCheckError Unit :=
  if solver f.toIntegers [] ≠ v.isSatisfiable then .error .mismatch
  else
    match v with
    | .unsatisfiable => .ok ()
    | .satisfiable assignment _ =>
      match assumptions f.names assignment.bindings with
      | .error e => .error e
      | .ok ls => if solver f.toIntegers ls then .ok () else .error .invalidSolution

end Formula

end DecisionTrace
