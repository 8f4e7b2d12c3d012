/-!
# Positions counted from either end

A position names an item of a sequence of length `n`: from `0` to `n - 1` it counts from the
front, from `-n` to `-1` from the back, and any other integer names nothing. A slice walks such
positions with a step. Its bounds are never out of range; they are moved to the nearest end
instead.

A single position, like any count of things to make, must fit into a machine word. One that does not
is refused as such, before it is compared with the length of the sequence.
-/

namespace DecisionTrace

/-- Whether an integer fits into a machine word of 64 bits with a sign. -/
def fitsWord (i : Int) : Bool :=
  -(Nat.pow 2 63 : Int) ≤ i && i < Nat.pow 2 63

/-- The message of an integer that does not fit into a machine word. -/
def wordMessage : String :=
  "cannot fit 'int' into an index-sized integer"

/-- Why there is no item at a position. -/
inductive PositionError where
  | noWord
  /-- The position names nothing in a sequence of this kind. -/
  | outOfRange (kind : String)
deriving DecidableEq, Repr

/-- The message of a position without an item. -/
def PositionError.message : PositionError → String
  | .noWord => wordMessage
  | .outOfRange kind => kind ++ " index out of range"

/-- The index that a position names in a sequence of length `n`. -/
def Position.index? (n : Nat) (i : Int) : Option Nat :=
  if 0 ≤ i ∧ i < n then some i.toNat
  else if -n ≤ i ∧ i < 0 then some (i + n).toNat
  else none

/-- The item at a position. -/
def Position.item? {α : Type} (items : List α) (i : Int) : Option α :=
  (Position.index? items.length i).bind fun k => items[k]?

/-- The item at a position of a sequence of some kind, or why there is none. -/
def Position.lookup {α : Type} (kind : String) (items : List α) (i : Int) :
    Except PositionError α :=
  match item? items i with
  | some x => .ok x
  | none => if fitsWord i then .error (.outOfRange kind) else .error .noWord

/-- The number of items in front of a cut, for a cut counted from either end and moved to the
nearest end when it lies outside. -/
def Position.cut (n : Nat) (i : Int) : Nat :=
  if 0 ≤ i then min i.toNat n else (i + n).toNat

/-- A walk over positions; a missing bound stands for the end where the walk starts or stops. -/
structure Slice where
  start : Option Int
  stop : Option Int
  step : Int

namespace Slice

/-- A bound moved into the range from `low` to `high`, after counting a negative one from the
back. -/
def clamp (n : Nat) (low high i : Int) : Int :=
  if i < 0 then max (i + n) low else min i high

/-- The indices of `count` steps from `first`. -/
def walk (first step : Int) (count : Nat) : List Nat :=
  (List.range count).map fun (k : Nat) => (first + step * k).toNat

/-- The indices that a slice with a nonzero step visits in a sequence of length `n`. -/
def indices (s : Slice) (n : Nat) : List Nat :=
  if 0 < s.step then
    let first := (s.start.map (clamp n 0 n)).getD 0
    let last := (s.stop.map (clamp n 0 n)).getD n
    -- rounded up, since a last step that is cut short still visits its start
    walk first s.step ((last - first + s.step - 1) / s.step).toNat
  else
    let first := (s.start.map (clamp n (-1) (n - 1))).getD (n - 1)
    let last := (s.stop.map (clamp n (-1) (n - 1))).getD (-1)
    walk first s.step ((first - last - s.step - 1) / -s.step).toNat

/-- The message of a slice with a step of zero. -/
def zeroStepMessage : String :=
  "slice step cannot be zero"

/-- The items that a slice visits, in the order of the walk; a step of zero visits nothing and is
refused. -/
def items? {α : Type} (s : Slice) (items : List α) : Option (List α) :=
  if s.step = 0 then none else some ((s.indices items.length).filterMap fun k => items[k]?)

end Slice

end DecisionTrace
