import DecisionTrace.Assignment

/-!
# Literals

A literal is a variable name with a polarity. Under an assignment it is true, false, or undecided
when its variable is not bound.
-/

namespace DecisionTrace

/-- A variable name with a polarity. -/
structure Literal where
  name : String
  negated : Bool := false
deriving DecidableEq, Repr

namespace Literal

/-- The value of the variable that makes the literal true. -/
def satisfyingValue (l : Literal) : Bool :=
  !l.negated

/-- The literal of the same variable with the other polarity. -/
def negate (l : Literal) : Literal :=
  ⟨l.name, !l.negated⟩

/-- Whether two literals share their variable and differ in polarity. -/
def isComplementOf (l m : Literal) : Bool :=
  l.name == m.name && l.negated != m.negated

/-- The truth value of the literal; none when its variable is not bound. -/
def evaluate (l : Literal) (a : Assignment) : Option Bool :=
  (a.value? l.name).map (· == l.satisfyingValue)

/-- The mark in front of a negated name. -/
def negationMark : String := "¬"

/-- The literal as a text, such as `A` or `¬A`. -/
def render (l : Literal) : String :=
  if l.negated then negationMark ++ l.name else l.name

end Literal

end DecisionTrace
