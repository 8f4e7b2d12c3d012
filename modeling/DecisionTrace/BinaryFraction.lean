/-!
# Floating-point numbers as exact fractions

A finite double is an integer times a power of two. Rounding it to an integer is done on that form
in exact arithmetic, so no second rounding can creep in. The double nearest to a decimal or to a
product is found in the same way, from the exact quotient.
-/

namespace DecisionTrace

/-- The number `mantissa * 2 ^ exponent`, negated on demand. -/
structure BinaryFraction where
  negative : Bool
  mantissa : Nat
  exponent : Int
deriving DecidableEq, Repr

namespace BinaryFraction

/-- The exponent of the smallest doubles. -/
def minExponent : Int := -1074

/-- The exponent of the largest doubles. -/
def maxExponent : Int := 971

/-- The value of a finite double. -/
def ofFloat? (x : Float) : Option BinaryFraction :=
  let code := x.toBits.toNat
  let negative := decide (Nat.pow 2 63 ≤ code)
  let biased : Nat := code / Nat.pow 2 52 % Nat.pow 2 11
  let rest : Nat := code % Nat.pow 2 52
  if biased = 2047 then none
  else if biased = 0 then some ⟨negative, rest, minExponent⟩
  else some ⟨negative, Nat.pow 2 52 + rest, (biased : Int) - 1075⟩

/-- The integer nearest to a quotient, and the even one of two that are equally near. -/
def roundQuotient (n d : Nat) : Nat :=
  let below := n / d
  let rest := n % d
  if 2 * rest < d ∨ (2 * rest = d ∧ below % 2 = 0) then below else below + 1

/-- The exponent of the double nearest to a quotient: the one for which the quotient has 53 bits in
front of the point, unless that is below the smallest. -/
def quotientExponent (n d : Nat) : Int :=
  -- the quotient lies between the powers of two next to this one
  let size : Int := (n.log2 : Int) - d.log2
  let e := size - 52
  let e := if n * Nat.pow 2 (-e).toNat < Nat.pow 2 52 * (d * Nat.pow 2 e.toNat) then e - 1 else e
  max e minExponent

/-- The double nearest to a quotient; none when it is too large for a double. -/
def ofQuotient? (negative : Bool) (n d : Nat) : Option BinaryFraction :=
  if n = 0 then some ⟨negative, 0, minExponent⟩
  else
    let e := quotientExponent n d
    let m := roundQuotient (n * Nat.pow 2 (-e).toNat) (d * Nat.pow 2 e.toNat)
    -- rounding may reach the next power of two
    let (m, e) := if m = Nat.pow 2 53 then (Nat.pow 2 52, e + 1) else (m, e)
    if maxExponent < e then none else some ⟨negative, m, e⟩

/-- The double nearest to `mantissa * 10 ^ exponent`; none when it is too large for a double.
Decimals far beyond the range of doubles are settled without their powers of ten. -/
def ofDecimal? (negative : Bool) (mantissa : Nat) (exponent : Int) : Option BinaryFraction :=
  -- eight for ten bounds the size, from above for a negative exponent and else from below
  let bits := mantissa.log2 + 3 * exponent
  if mantissa = 0 ∨ bits < -1076 then some ⟨negative, 0, minExponent⟩
  else if 0 < exponent ∧ 1024 ≤ bits then none
  else ofQuotient? negative (mantissa * Nat.pow 10 exponent.toNat) (Nat.pow 10 (-exponent).toNat)

/-- The double nearest to an integer; none when it is too large for a double. -/
def ofInt? (n : Int) : Option BinaryFraction :=
  ofQuotient? (n < 0) n.natAbs 1

/-- The sign put back on a magnitude. -/
def signed (x : BinaryFraction) (n : Nat) : Int :=
  if x.negative then -n else n

/-- The integer next to the number on the side of zero. -/
def truncate (x : BinaryFraction) : Int :=
  if 0 ≤ x.exponent then x.signed (x.mantissa * Nat.pow 2 x.exponent.toNat)
  else x.signed (x.mantissa / Nat.pow 2 (-x.exponent).toNat)

/-- The nearest integer, and the even one of two that are equally near. -/
def nearest (x : BinaryFraction) : Int :=
  if 0 ≤ x.exponent then x.truncate
  else x.signed (roundQuotient x.mantissa (Nat.pow 2 (-x.exponent).toNat))

/-- The text of a double without decimals; a number that rounds to zero keeps its sign. -/
def wholeText (x : BinaryFraction) : String :=
  let n := x.nearest.natAbs
  (if x.negative then "-" else "") ++ toString n

end BinaryFraction

/-- A double: a finite one, or one of those that are no numbers of arithmetic. -/
inductive Double where
  | finite (x : BinaryFraction)
  | infinite (negative : Bool)
  | notANumber
deriving DecidableEq, Repr

namespace Double

/-- The finite double, or the infinite one of a sign in its place. -/
def orInfinite (negative : Bool) : Option BinaryFraction → Double
  | some x => .finite x
  | none => .infinite negative

/-- The double nearest to a decimal. -/
def ofDecimal (negative : Bool) (mantissa : Nat) (exponent : Int) : Double :=
  orInfinite negative (BinaryFraction.ofDecimal? negative mantissa exponent)

instance : OfScientific Double where
  ofScientific mantissa fractional exponent :=
    ofDecimal false mantissa (if fractional then -exponent else exponent)

end Double

/-- The double nearest to the product with a double. -/
def BinaryFraction.times (x : BinaryFraction) : Double → Double
  | .finite y =>
    let negative := x.negative != y.negative
    let e := x.exponent + y.exponent
    .orInfinite negative
      (ofQuotient? negative (x.mantissa * y.mantissa * Nat.pow 2 e.toNat) (Nat.pow 2 (-e).toNat))
  | .infinite negative =>
    if x.mantissa = 0 then .notANumber else .infinite (x.negative != negative)
  | .notANumber => .notANumber

end DecisionTrace
