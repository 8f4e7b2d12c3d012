import DecisionTrace.FirstSeen
import DecisionTrace.Text.Decimal

/-!
# Drawing from a stream of random words

A stream yields 32-bit words; every draw below is made of such words and says exactly which it
takes, so one seed gives the same draws everywhere. Draws work on any stream, not only on the
generator that this library brings along, and a statement about them holds for all streams.

A number below a bound is drawn by rejection: words are taken until one fits. On some stream none
ever does, so the loop is handed a number of attempts; running out of them is an error of its own
and never mistaken for a result. Whoever draws says how many attempts there are, and to say that a
draw ends is to say that some number of them suffices.
-/

namespace DecisionTrace

/-- A stream of 32-bit words: its state gives the next word and the state after it. -/
class WordStream (σ : Type) where
  next : σ → UInt32 × σ

/-- Why a draw gives nothing. -/
inductive DrawError where
  /-- No integer lies between the bounds. -/
  | emptyRange (low high : Int)
  /-- More items are wanted than there are, or fewer than none. -/
  | sampleSize
  /-- Every attempt was rejected. -/
  | exhausted
deriving DecidableEq, Repr

/-- The message of an empty range: its bounds, the second of which is excluded, and its width. A
number with too many digits takes the place of the message. -/
def emptyRangeMessage (low high : Int) : String :=
  if [low, high + 1, high + 1 - low].any Text.exceedsDigits then Text.unwritableMessage
  else
    "empty range for randrange() (" ++ Text.integer low ++ ", " ++ Text.integer (high + 1) ++
      ", " ++ Text.integer (high + 1 - low) ++ ")"

/-- The message of a draw that gives nothing. -/
def DrawError.message : DrawError → String
  | .emptyRange low high => emptyRangeMessage low high
  | .sampleSize => "Sample larger than population or is negative"
  | .exhausted => "no attempt was accepted"

/-- A draw from a stream; the stream goes on from where the draw left it, also when it failed. -/
abbrev Draw (σ α : Type) := ExceptT DrawError (StateM σ) α

namespace Draw

variable {σ : Type} [WordStream σ] {α : Type}

/-- The next word. -/
def word : Draw σ UInt32 :=
  ExceptT.mk do
    let (w, rest) := WordStream.next (← get)
    set rest
    return .ok w

/-- A number of `k` bits. Words give its digits to base `2 ^ 32`, least significant first, and the
last word only its leading bits. -/
def bits (k : Nat) : Draw σ Nat :=
  if k = 0 then return 0
  else if k ≤ 32 then return (← word).toNat / Nat.pow 2 (32 - k)
  else do
    let low ← word
    let high ← bits (k - 32)
    return low.toNat + Nat.pow 2 32 * high
termination_by k

/-- The first of the next few draws of `k` bits that lies below `n`. -/
def belowWithin (n k : Nat) : (attempts : Nat) → Draw σ (Fin n)
  | 0 => throw .exhausted
  | attempts + 1 => do
    let r ← bits k
    if h : r < n then return ⟨r, h⟩ else belowWithin n k attempts

/-- A number below `n`, each with the same chance. -/
def below (attempts n : Nat) : Draw σ (Fin n) :=
  -- the bits of the bound itself, so a bound of one takes words until their first bit is zero
  belowWithin n (n.log2 + 1) attempts

/-- An integer between two bounds, both included. -/
def between (attempts : Nat) (low high : Int) : Draw σ Int :=
  if high < low then throw (.emptyRange low high)
  else do return low + (← below attempts (high + 1 - low).toNat).val

/-- A number below `2 ^ 53`, the numerator of a fraction between zero and one. -/
def fraction : Draw σ Nat := do
  let high ← word
  let low ← word
  return (high.toNat / Nat.pow 2 5) * Nat.pow 2 26 + low.toNat / Nat.pow 2 6

/-- Whether a fraction lies below one half. -/
def coin : Draw σ Bool := do
  return (← fraction) < Nat.pow 2 52

/-! ## Samples without repetition

There are two ways to draw several items of a list. A short list is used up: each drawn item is
replaced by the last one and the list shrinks. For a long list only the indices already drawn are
kept, and a repeated one is rejected.
-/

/-- `k` items of a list that is used up. -/
def fromPool (attempts : Nat) : (k : Nat) → List α → Draw σ (List α)
  | 0, _ => return []
  | k + 1, pool =>
    if h : pool = [] then throw .sampleSize
    else do
      let j ← below attempts pool.length
      -- the last item moves to the free place, so what is left stays one piece
      let rest ← fromPool attempts k (pool.set j (pool.getLast h)).dropLast
      return pool[j] :: rest

/-- The first of the next `tries` numbers below `n` that is not among those drawn. -/
def freshWithin (attempts n : Nat) (drawn : List (Fin n)) : (tries : Nat) → Draw σ (Fin n)
  | 0 => throw .exhausted
  | tries + 1 => do
    let j ← below attempts n
    if j ∈ drawn then freshWithin attempts n drawn tries else return j

/-- `k` numbers below `n`, none of them among those drawn before and no two equal. -/
def freshIndices (attempts n : Nat) :
    (k : Nat) → (drawn : List (Fin n)) → Draw σ (List (Fin n))
  | 0, _ => return []
  | k + 1, drawn => do
    let j ← freshWithin attempts n drawn attempts
    let rest ← freshIndices attempts n k (j :: drawn)
    return j :: rest

/-- The least power of four, from `p` on, that is not below `n`; `steps` bounds the search. -/
def powerOfFour (n p : Nat) : (steps : Nat) → Nat
  | 0 => p
  | steps + 1 => if n ≤ p then p else powerOfFour n (4 * p) steps

/-- The length up to which a list is used up rather than indexed when `k` items are drawn. -/
def poolLimit (k : Nat) : Nat :=
  21 + if 5 < k then powerOfFour (3 * k) 1 (3 * k) else 0

/-- `k` items at different places of a list, in the order of drawing. -/
def sample (attempts : Nat) (items : List α) (k : Int) : Draw σ (List α) :=
  if k < 0 ∨ items.length < k then throw .sampleSize
  else if items.length ≤ poolLimit k.toNat then fromPool attempts k.toNat items
  else do return (← freshIndices attempts items.length k.toNat []).map items.get

/-- The items below place `i` brought into random order with it, from the back to the front. -/
def shuffleFrom (attempts : Nat) : (i : Nat) → Array α → Draw σ (Array α)
  | 0, items => return items
  | i + 1, items => do
    let j ← below attempts (i + 2)
    shuffleFrom attempts i (items.swapIfInBounds (i + 1) j)

/-- The items of a list in random order. -/
def shuffle (attempts : Nat) (items : List α) : Draw σ (List α) := do
  return (← shuffleFrom attempts (items.length - 1) items.toArray).toList

/-- The result of a draw from a stream, with the stream after it. -/
def runOn (stream : σ) (d : Draw σ α) : Except DrawError α × σ :=
  d.run.run stream

end Draw

end DecisionTrace
