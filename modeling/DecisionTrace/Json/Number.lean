import DecisionTrace.BinaryFraction
import DecisionTrace.Text.Decimal

/-!
# Numbers in JSON

Integers are exact. A number written with a fraction or an exponent stands for the nearest double;
it is written with the fewest digits that read back as that double, the nearest such digits where
there are several, and the even ones in a tie. The notation is positional while the decimal
exponent lies between -4 and 15, and always shows that the number is no integer.
-/

namespace DecisionTrace

/-- A number of a JSON text. The three that are no numbers of arithmetic have words of their own. -/
inductive JsonNumber where
  | integer (n : Int)
  /-- The decimal `mantissa * 10 ^ exponent`, negated on demand. -/
  | decimal (negative : Bool) (mantissa : Nat) (exponent : Int)
  | infinity (negative : Bool)
  | notANumber
deriving DecidableEq, Repr

namespace BinaryFraction

/-- A quotient of natural numbers compared with a digit string: numerator and denominator of
`n * 2 ^ q / 10 ^ p`. -/
def scaled (n : Nat) (q p : Int) : Nat × Nat :=
  (n * Nat.pow 2 q.toNat * Nat.pow 10 (-p).toNat, Nat.pow 2 (-q).toNat * Nat.pow 10 p.toNat)

/-- Whether the decimal `d * 10 ^ p` reads back as the number: it lies between the midpoints to
the neighbouring doubles, which count when the mantissa is even. -/
def readsBack (x : BinaryFraction) (d : Nat) (p : Int) : Bool :=
  -- below a power of two the neighbour is only half as far away
  let lowest := x.mantissa = Nat.pow 2 52 && -1074 < x.exponent
  let (low, lowUnit) := scaled (4 * x.mantissa - if lowest then 1 else 2) (x.exponent - 2) p
  let (high, highUnit) := scaled (4 * x.mantissa + 2) (x.exponent - 2) p
  if x.mantissa % 2 = 0 then low ≤ d * lowUnit && d * highUnit ≤ high
  else low < d * lowUnit && d * highUnit < high

/-- The decimal with exponent `p` that is nearest to the number among its two neighbours on that
grid, if one of them reads back. -/
def onGrid? (x : BinaryFraction) (p : Int) : Option Nat :=
  let (n, unit) := scaled x.mantissa x.exponent p
  let below := n / unit
  let nearest := roundQuotient n unit
  let other := if nearest = below then below + 1 else below
  if x.readsBack nearest p then some nearest
  else if x.readsBack other p then some other
  else none

/-- The coarsest grid, from exponent `p` downwards, on which a decimal reads back. -/
def shortestFrom (x : BinaryFraction) (p : Int) : (steps : Nat) → Nat × Int
  | 0 => (x.mantissa, x.exponent)
  | steps + 1 =>
    match x.onGrid? p with
    | some d => if d = 0 then shortestFrom x (p - 1) steps else (d, p)
    | none => shortestFrom x (p - 1) steps

/-- The shortest decimal that reads back as a number other than zero. -/
def shortest (x : BinaryFraction) : Nat × Int :=
  x.shortestFrom 309 700

/-- The digits of a decimal without zeros at its end, and its exponent. -/
def stripZeros (d : Nat) (p : Int) : Nat × Int :=
  if h : d ≠ 0 ∧ d % 10 = 0 then stripZeros (d / 10) (p + 1) else (d, p)
termination_by d
decreasing_by omega

end BinaryFraction

namespace JsonNumber

/-- The digits of a decimal with the point put behind the first `whole` of them. -/
def positional (digits : List Char) (whole : Int) : List Char :=
  if whole ≤ 0 then '0' :: '.' :: List.replicate (-whole).toNat '0' ++ digits
  else
    let k := whole.toNat
    let front := digits.take k ++ List.replicate (k - digits.length) '0'
    let back := digits.drop k
    front ++ '.' :: (if back.isEmpty then ['0'] else back)

/-- A decimal in scientific notation; its exponent has a sign and two digits at least. -/
def scientific (digits : List Char) (exponent : Int) : List Char :=
  let fraction := match digits.drop 1 with
    | [] => []
    | rest => '.' :: rest
  let size := Text.naturalDigits exponent.natAbs
  let padded := if size.length < 2 then '0' :: size else size
  digits.take 1 ++ fraction ++ 'e' :: (if exponent < 0 then '-' else '+') :: padded

/-- The text of a finite double. -/
def fractionText (x : BinaryFraction) : String :=
  let sign := if x.negative then "-" else ""
  if x.mantissa = 0 then sign ++ "0.0"
  else
    let (d, p) := x.shortest
    let (d, p) := BinaryFraction.stripZeros d p
    let digits := Text.naturalDigits d
    let exponent := p + digits.length - 1
    sign ++ String.ofList
      (if -4 ≤ exponent ∧ exponent < 16 then positional digits (exponent + 1)
       else scientific digits exponent)

/-- The text of an infinite number. -/
def infiniteText (negative : Bool) : String :=
  if negative then "-Infinity" else "Infinity"

/-- The double nearest to a number. -/
def toDouble : JsonNumber → Double
  | .integer n => .orInfinite (n < 0) (BinaryFraction.ofInt? n)
  | .decimal negative mantissa exponent => .ofDecimal negative mantissa exponent
  | .infinity negative => .infinite negative
  | .notANumber => .notANumber

/-- The text of a number. -/
def render : JsonNumber → String
  | .integer n => Text.integer n
  | .decimal negative mantissa exponent =>
    match BinaryFraction.ofDecimal? negative mantissa exponent with
    | some x => fractionText x
    | none => infiniteText negative
  | .infinity negative => infiniteText negative
  | .notANumber => "NaN"

/-- Whether the number is zero. -/
def isZero : JsonNumber → Bool
  | .integer n => n = 0
  | .decimal negative mantissa exponent =>
    match BinaryFraction.ofDecimal? negative mantissa exponent with
    | some x => x.mantissa = 0
    | none => false
  | .infinity _ => false
  | .notANumber => false

end JsonNumber

end DecisionTrace
