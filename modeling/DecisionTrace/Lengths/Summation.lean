/-!
# Summation of doubles

A long sum of doubles is taken in halves, and a medium one in eight lanes, which keeps the rounding
error small. The order of the additions is fixed, because it decides the last bits of the result.
-/

namespace DecisionTrace.Summation

/-- The sum of `count` numbers from an index, from left to right. -/
def plain (xs : Array Float) (start count : Nat) (initial : Float) : Float :=
  (List.range count).foldl (fun sum i => sum + xs.getD (start + i) 0) initial

/-- The sum of every eighth number of some blocks of eight, from an index. -/
def lane (xs : Array Float) (start blocks : Nat) : Float :=
  (List.range (blocks - 1)).foldl (fun sum b => sum + xs.getD (start + 8 * (b + 1)) 0)
    (xs.getD start 0)

/-- The sum of at least eight numbers from an index, in eight lanes; those that fill no block come
last. -/
def inLanes (xs : Array Float) (start count : Nat) : Float :=
  let blocks := count / 8
  let r (j : Nat) := lane xs (start + j) blocks
  -- the lanes are added in pairs before the rest joins
  plain xs (start + 8 * blocks) (count % 8)
    (((r 0 + r 1) + (r 2 + r 3)) + ((r 4 + r 5) + (r 6 + r 7)))

/-- The sum of `count` numbers from an index. -/
def pairwise (xs : Array Float) (start count : Nat) : Float :=
  if count < 8 then plain xs start count 0
  else if count ≤ 128 then inLanes xs start count
  else
    let half := count / 2 / 8 * 8
    pairwise xs start half + pairwise xs (start + half) (count - half)
termination_by count
decreasing_by all_goals omega

/-- The sum of all numbers of an array. -/
def total (xs : Array Float) : Float :=
  pairwise xs 0 xs.size

end DecisionTrace.Summation
