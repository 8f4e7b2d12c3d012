import DecisionTrace.Formula

/-!
# Integer clauses

Solvers outside this library take clauses as lists of nonzero integers: the variables of a formula
are numbered from one in first-seen order, and a negated literal is the negative number.

A valuation gives every number a value. Clauses are satisfiable when some valuation makes a literal
of each of them true.
-/

namespace DecisionTrace

/-- A conjunction of clauses over numbered variables. -/
abbrev IntegerClauses := List (List Int)

/-- The number of a name in an order, counted from one; zero for a name outside it. -/
def numberIn (order : List String) (name : String) : Int :=
  match order.findIdx? (· = name) with
  | some k => (k + 1 : Nat)
  | none => 0

/-- The integer of a literal, its sign the polarity. -/
def Literal.toInteger (order : List String) (l : Literal) : Int :=
  if l.negated then -numberIn order l.name else numberIn order l.name

/-- The clauses with integers for literals, numbered in first-seen order. -/
def Formula.toIntegers (f : Formula) : IntegerClauses :=
  let order := f.names
  f.clauses.map fun c => c.literals.map (Literal.toInteger order)

namespace IntegerClauses

/-- A valuation makes a literal true. -/
def holds (v : Nat → Bool) (l : Int) : Bool :=
  v l.natAbs == decide (0 ≤ l)

theorem holds_neg {v : Nat → Bool} {l : Int} (h : l ≠ 0) : holds v (-l) = !holds v l := by
  have : decide (0 ≤ -l) = !decide (0 ≤ l) := by
    by_cases hl : 0 ≤ l
    · simp [hl]; omega
    · simp [hl]; omega
  unfold holds
  rw [Int.natAbs_neg, this]
  cases v l.natAbs <;> cases decide (0 ≤ l) <;> rfl

/-- A valuation makes a literal of every clause true. -/
def satisfiedBy (v : Nat → Bool) (cs : IntegerClauses) : Bool :=
  cs.all fun c => c.any (holds v)

theorem satisfiedBy_iff {v : Nat → Bool} {cs : IntegerClauses} :
    cs.satisfiedBy v = true ↔ ∀ c ∈ cs, ∃ l ∈ c, holds v l = true := by
  simp [satisfiedBy, List.all_eq_true, List.any_eq_true]

/-- Some valuation makes a literal of every clause true. -/
def Satisfiable (cs : IntegerClauses) : Prop :=
  ∃ v, cs.satisfiedBy v = true

end IntegerClauses

end DecisionTrace
