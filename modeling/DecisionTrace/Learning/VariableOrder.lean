/-!
# The order of variables

The variables that a search has not decided stand in a binary heap, the one with the highest score
on top. A variable that takes part in a conflict is awarded a bonus that grows from one conflict to
the next, so that the latest conflicts count most. The variables are numbers below a fixed bound.
-/

namespace DecisionTrace

namespace Learning

/-- The undecided variables by their scores. -/
structure VariableOrder where
  heap : Array Nat
  /-- The place of each variable in the heap, counted from one; zero outside the heap. -/
  places : Array Nat
  scores : Array Nat
  bonus : Nat := 1024

namespace VariableOrder

/-- All variables below a bound, with no scores. -/
def ofBound (bound : Nat) : VariableOrder where
  heap := Array.range bound
  places := (Array.range bound).map (· + 1)
  scores := Array.replicate bound 0

/-- The score of a variable. -/
@[inline] def score (o : VariableOrder) (v : Nat) : Nat :=
  o.scores.getD v 0

/-- The heap with a variable at an index. -/
@[inline] def set (o : VariableOrder) (v i : Nat) : VariableOrder :=
  match o with
  | ⟨heap, places, scores, bonus⟩ =>
    ⟨heap.setIfInBounds i v, places.setIfInBounds v (i + 1), scores, bonus⟩

/-- The largest number of levels of a heap. -/
def maxLevels : Nat := 64

/-- A variable moved up from an index until the one above has no lower score. -/
def rise (v : Nat) : (levels : Nat) → (i : Nat) → VariableOrder → VariableOrder
  | 0, i, o => o.set v i
  | levels + 1, i, o =>
    if i = 0 then o.set v i
    else
      let above := (i - 1) / 2
      let u := o.heap.getD above 0
      if o.score u < o.score v then rise v levels above (o.set u i) else o.set v i

/-- The index below another that has the higher score. -/
def below (o : VariableOrder) (i : Nat) : Nat :=
  let left := 2 * i + 1
  let right := left + 1
  if right < o.heap.size ∧ o.score (o.heap.getD left 0) < o.score (o.heap.getD right 0) then right
  else left

/-- A variable moved down from an index until none below has a higher score. -/
def sink (v : Nat) : (levels : Nat) → (i : Nat) → VariableOrder → VariableOrder
  | 0, i, o => o.set v i
  | levels + 1, i, o =>
    let j := o.below i
    if j < o.heap.size then
      let u := o.heap.getD j 0
      if o.score v < o.score u then sink v levels j (o.set u i) else o.set v i
    else o.set v i

/-- The order with a variable, which may be there already. -/
def insert (o : VariableOrder) (v : Nat) : VariableOrder :=
  if o.places.getD v 0 = 0 then
    match o with
    | ⟨heap, places, scores, bonus⟩ =>
      let last := heap.size
      rise v maxLevels last ⟨heap.push v, places, scores, bonus⟩
  else o

/-- The variable on top, and the order without it. -/
def pop? (o : VariableOrder) : Option (Nat × VariableOrder) :=
  match o with
  | ⟨heap, places, scores, bonus⟩ =>
    if heap.size = 0 then none
    else
      let top := heap.getD 0 0
      let last := heap.getD (heap.size - 1) 0
      let o : VariableOrder := ⟨heap.pop, places.setIfInBounds top 0, scores, bonus⟩
      some (top, if o.heap.size = 0 then o else sink last maxLevels 0 o)

/-- The order after a variable has been awarded the bonus. -/
def award (o : VariableOrder) (v : Nat) : VariableOrder :=
  match o with
  | ⟨heap, places, scores, bonus⟩ =>
    let score := scores.getD v 0 + bonus
    let place := places.getD v 0
    let o : VariableOrder := ⟨heap, places, scores.setIfInBounds v score, bonus⟩
    if place = 0 then o else rise v maxLevels (place - 1) o

/-- The order with a higher bonus; large scores are scaled down. -/
def raiseBonus (o : VariableOrder) : VariableOrder :=
  match o with
  | ⟨heap, places, scores, bonus⟩ =>
    let bonus := bonus + bonus / 32
    if bonus >>> 50 = 0 then ⟨heap, places, scores, bonus⟩
    else ⟨heap, places, scores.map (· >>> 40), bonus >>> 40⟩

end VariableOrder

end Learning

end DecisionTrace
