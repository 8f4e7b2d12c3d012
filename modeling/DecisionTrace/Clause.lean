import DecisionTrace.FirstSeen
import DecisionTrace.Literal

/-!
# Clauses

A clause is a disjunction of one or more literals, kept in the order written; repeated and
complementary literals stay as they are. That a clause has a literal is part of its type, so an
empty clause can only be met while reading.
-/

namespace DecisionTrace

/-- A disjunction of one or more literals. -/
structure Clause where
  literals : List Literal
  nonempty : literals ≠ []
deriving DecidableEq

namespace Clause

/-- The names of the variables of the clause, in first-seen order. -/
def names (c : Clause) : List String :=
  firstSeen (c.literals.map Literal.name)

/-- Whether some literal is true. -/
def satisfiedBy (c : Clause) (a : Assignment) : Bool :=
  c.literals.any fun l => l.evaluate a == some true

/-- The literals whose variables are not bound; a repeated literal counts as often as it occurs. -/
def unassigned (c : Clause) (a : Assignment) : List Literal :=
  c.literals.filter fun l => !a.binds l.name

/-- What an assignment makes of a clause. -/
inductive Status where
  /-- Some literal is true. -/
  | satisfied
  /-- Every literal is false. -/
  | falsified
  /-- No literal is true and this occurrence alone is undecided. -/
  | unit (l : Literal)
  /-- No literal is true and several occurrences are undecided. -/
  | unresolved
deriving DecidableEq, Repr

/-- What an assignment makes of the clause. -/
def status (c : Clause) (a : Assignment) : Status :=
  if c.satisfiedBy a then .satisfied
  else
    match c.unassigned a with
    | [] => .falsified
    | [l] => .unit l
    | _ :: _ :: _ => .unresolved

/-- The mark between the literals of a clause. -/
def disjunctionMark : String := " ∨ "

/-- The clause as a text, such as `(A ∨ ¬B)`. -/
def render (c : Clause) : String :=
  "(" ++ disjunctionMark.intercalate (c.literals.map Literal.render) ++ ")"

end Clause

end DecisionTrace
