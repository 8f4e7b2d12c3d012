import DecisionTrace.Clause
import DecisionTrace.Position
import DecisionTrace.Text.Decimal

/-!
# Formulas in conjunctive normal form

A formula is an ordered conjunction of clauses. Its variables, in first-seen order over the
clauses and within each clause, number the variables for integer clauses and give the order in
which a search branches.
-/

namespace DecisionTrace

/-- An ordered conjunction of clauses. -/
structure Formula where
  clauses : List Clause := []
deriving DecidableEq

/-- The demand for a clause at a position that names none. -/
inductive Formula.IndexError where
  /-- No clause to read at this position. -/
  | missing (e : PositionError)
  /-- No clause to remove at this position of a formula with `size` clauses. -/
  | notRemovable (index : Int) (size : Nat)
  /-- No clause to remove, at a position with too many digits to be written. -/
  | tooManyDigits
deriving DecidableEq, Repr

/-- The message of a demand for a clause that is not there. -/
def Formula.IndexError.message : Formula.IndexError → String
  | .missing e => e.message
  | .notRemovable index size =>
    "clause index " ++ Text.integer index ++ " out of range for " ++ Text.natural size ++ " clauses"
  | .tooManyDigits => Text.unwritableMessage

namespace Formula

/-- The number of clauses. -/
def size (f : Formula) : Nat :=
  f.clauses.length

/-- The literals of all clauses in reading order. -/
def literals (f : Formula) : List Literal :=
  f.clauses.flatMap Clause.literals

/-- The names of the variables, in first-seen order. -/
def names (f : Formula) : List String :=
  firstSeen (f.literals.map Literal.name)

/-- The formula with a clause after all others. -/
def withClause (f : Formula) (c : Clause) : Formula :=
  ⟨f.clauses ++ [c]⟩

/-- The formula without the clause at a position. A position that names none is told, and one with
too many digits cannot be. -/
def withoutClause (f : Formula) (i : Int) : Except IndexError Formula :=
  match Position.index? f.size i with
  | some k => .ok ⟨f.clauses.eraseIdx k⟩
  | none =>
    if Text.exceedsDigits i then .error .tooManyDigits else .error (.notRemovable i f.size)

/-- The clause at a position. -/
def clauseAt (f : Formula) (i : Int) : Except IndexError Clause :=
  match Position.lookup "tuple" f.clauses i with
  | .ok c => .ok c
  | .error e => .error (.missing e)

/-- Whether every clause has a true literal. -/
def satisfiedBy (f : Formula) (a : Assignment) : Bool :=
  f.clauses.all fun c => c.satisfiedBy a

/-- The formula as a text; the empty conjunction is the symbol of truth. -/
def render (f : Formula) : String :=
  if f.clauses.isEmpty then "⊤" else " ∧ ".intercalate (f.clauses.map Clause.render)

end Formula

end DecisionTrace
