import DecisionTrace.BinaryFraction
import DecisionTrace.Clause.Reader
import DecisionTrace.Random.Draw

/-!
# Random formulas

A random formula has clauses of one length over the variables `x1`, `x2`, …; each clause takes its
variables without repetition, and a coin decides every sign. Unless their number is given, there
are about as many clauses as make a formula satisfiable in half of all cases; for small numbers of
variables this count is tabulated, otherwise it grows with a fixed ratio.
-/

namespace DecisionTrace

/-- A factor for a count. A product with an integer is exact; one with a double is computed in
doubles and loses its fraction. -/
inductive Factor where
  | integer (n : Int)
  | double (x : Double)

/-- What a random formula should look like. -/
structure FormulaShape where
  variableCount : Int
  clauseLength : Int := 3
  /-- How far the number of clauses may lie from the estimate, relative to it. -/
  variance : Factor := .double 0.1
  clauseCount : Option Int := none

/-- Why no random formula comes about. -/
inductive GenerationError where
  | draw (e : DrawError)
  /-- A clause would have no literals. -/
  | clause (e : ClauseError)
  /-- A count is too large for a double. -/
  | outOfRange
  /-- The number of clauses has no bound. -/
  | unbounded
  /-- The number of clauses is no number. -/
  | notANumber
deriving DecidableEq, Repr

/-- The message of a generation that fails. -/
def GenerationError.message : GenerationError → String
  | .draw e => e.message
  | .clause e => e.message
  | .outOfRange => "int too large to convert to float"
  | .unbounded => "cannot convert float infinity to integer"
  | .notANumber => "cannot convert float NaN to integer"

/-- The number of clauses at which formulas with this many variables are balanced. -/
def balancedCounts : List (Int × Int) :=
  [(3, 19), (4, 24), (5, 28), (6, 33), (7, 37), (8, 41), (9, 45), (10, 50), (11, 54), (12, 58),
   (13, 63), (14, 67), (15, 71), (16, 76), (17, 79), (18, 83), (19, 87), (20, 92)]

/-- The integer part of a count times a factor. -/
def scaledCount (count : Int) : Factor → Except GenerationError Int
  | .integer n => .ok (count * n)
  | .double x =>
    match BinaryFraction.ofInt? count with
    | none => .error .outOfRange
    | some n =>
      match n.times x with
      | .finite product => .ok product.truncate
      | .infinite _ => .error .unbounded
      | .notANumber => .error .notANumber

/-- The estimate of the balanced number of clauses. -/
def balancedCount (variableCount : Int) : Except GenerationError Int :=
  match balancedCounts.lookup variableCount with
  | some count => .ok count
  | none => scaledCount variableCount (.double 4.26)

/-- A draw of something that is made of clauses. -/
abbrev Generation (σ α : Type) := ExceptT GenerationError (StateM σ) α

namespace Generation

variable {σ : Type} [WordStream σ] {α : Type}

/-- A draw as a part of a generation. -/
def ofDraw (d : Draw σ α) : Generation σ α :=
  d.adapt GenerationError.draw

/-- The number of clauses, between the estimate less and plus its variance, and at least one. -/
def clauseCount (attempts : Nat) (shape : FormulaShape) : Generation σ Int :=
  match shape.clauseCount with
  | some count => return count
  | none =>
    match balancedCount shape.variableCount with
    | .error e => throw e
    | .ok base =>
      match scaledCount base shape.variance with
      | .error e => throw e
      | .ok delta => ofDraw (Draw.between attempts (max (base - delta) 1) (base + delta))

/-- The names of a number of variables. -/
def variableNames (n : Nat) : List String :=
  (List.range n).map fun i => "x" ++ Text.natural (i + 1)

/-- A literal on each name, with a random sign. -/
def signs : List String → Draw σ (List Literal)
  | [] => return []
  | name :: names => do
    let negated ← Draw.coin
    let rest ← signs names
    return ⟨name, negated⟩ :: rest

/-- A clause on `k` of the names. -/
def clause (attempts : Nat) (names : List String) (k : Int) : Generation σ Clause := do
  let chosen ← ofDraw (Draw.sample attempts names k)
  let literals ← ofDraw (signs chosen)
  match Clause.ofLiterals literals with
  | .ok c => return c
  | .error e => throw (.clause e)

/-- A number of clauses on `k` of the names each. -/
def clauses (attempts : Nat) (names : List String) (k : Int) :
    (count : Nat) → Generation σ (List Clause)
  | 0 => return []
  | count + 1 => do
    let c ← clause attempts names k
    let rest ← clauses attempts names k count
    return c :: rest

/-- A random formula of a shape. A clause has as many literals as asked for, but no more than there
are variables. -/
def formula (attempts : Nat) (shape : FormulaShape) : Generation σ Formula := do
  let count ← clauseCount attempts shape
  let names := variableNames shape.variableCount.toNat
  let cs ← clauses attempts names (min shape.clauseLength shape.variableCount) count.toNat
  return ⟨cs⟩

/-- The result of a generation from a stream, with the stream after it. -/
def runOn (stream : σ) (g : Generation σ α) : Except GenerationError α × σ :=
  g.run.run stream

end Generation

end DecisionTrace
