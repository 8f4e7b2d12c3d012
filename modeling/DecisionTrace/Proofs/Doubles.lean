import DecisionTrace.BinaryFraction
import Mathlib.Algebra.Group.Nat.Defs

/-!
# How large a double is

A finite double that comes about by rounding has a mantissa of 53 bits and no exponent above the
largest (`BinaryFraction.bounded_of_ofQuotient?`), which bounds its integer part
(`BinaryFraction.natAbs_truncate_lt`). The exponent that a quotient is given leaves at most 53 bits
in front of the point; this is where the logarithms of numerator and denominator come in.
-/

namespace DecisionTrace.BinaryFraction

variable {n d k : Nat} {e e' : Int} {negative : Bool} {x y : BinaryFraction}

/-- At most 53 bits of a quotient stand in front of the point, if its unit is a power of two. -/
def Fits (n d : Nat) (e : Int) : Prop :=
  n * 2 ^ (-e).toNat < 2 ^ 53 * (d * 2 ^ e.toNat)

theorem Fits.mono (h : Fits n d e) (hle : e ≤ e') : Fits n d e' :=
  calc
    n * 2 ^ (-e').toNat ≤ n * 2 ^ (-e).toNat :=
      Nat.mul_le_mul_left n (Nat.pow_le_pow_right (by decide) (by omega))
    _ < 2 ^ 53 * (d * 2 ^ e.toNat) := h
    _ ≤ 2 ^ 53 * (d * 2 ^ e'.toNat) :=
      Nat.mul_le_mul_left _ (Nat.mul_le_mul_left d (Nat.pow_le_pow_right (by decide) (by omega)))

/-- The quotient lies below the power of two that its numerator and denominator suggest. -/
theorem fits_log2 (hd : d ≠ 0) : Fits n d ((n.log2 : Int) - d.log2 - 52) := by
  have hexponents : n.log2 + 1 + (-((n.log2 : Int) - d.log2 - 52)).toNat ≤
      53 + (d.log2 + ((n.log2 : Int) - d.log2 - 52).toNat) := by omega
  calc
    n * 2 ^ _ < 2 ^ (n.log2 + 1) * 2 ^ _ :=
      Nat.mul_lt_mul_of_pos_right Nat.lt_log2_self (Nat.two_pow_pos _)
    _ ≤ 2 ^ 53 * (2 ^ d.log2 * 2 ^ _) := by
      rw [← Nat.pow_add, ← Nat.pow_add, ← Nat.pow_add]
      exact Nat.pow_le_pow_right (by decide) hexponents
    _ ≤ 2 ^ 53 * (d * 2 ^ _) :=
      Nat.mul_le_mul_left _ (Nat.mul_le_mul_right _ (Nat.log2_self_le hd))

theorem fits_sub_one (h : n * 2 ^ (-e).toNat < 2 ^ 52 * (d * 2 ^ e.toNat)) : Fits n d (e - 1) := by
  rw [Fits]
  by_cases hlt : 0 < e
  · have hneg : (-(e - 1)).toNat = (-e).toNat := by omega
    have hpos : e.toNat = (e - 1).toNat + 1 := by omega
    rw [hpos, Nat.pow_succ 2 (e - 1).toNat, ← Nat.mul_assoc d] at h
    rw [hneg]
    omega
  · have hneg : (-(e - 1)).toNat = (-e).toNat + 1 := by omega
    have hpos : (e - 1).toNat = e.toNat := by omega
    rw [hneg, hpos, Nat.pow_succ 2, ← Nat.mul_assoc n]
    omega

theorem fits_quotientExponent (hd : d ≠ 0) : Fits n d (quotientExponent n d) := by
  rw [quotientExponent]
  refine Fits.mono ?_ (Int.le_max_left _ _)
  split
  · next hlt => exact fits_sub_one hlt
  · exact fits_log2 hd

theorem roundQuotient_le (h : n < k * d) : roundQuotient n d ≤ k := by
  have hdiv : n / d < k := Nat.div_lt_of_lt_mul (by rwa [Nat.mul_comm])
  rw [roundQuotient]
  split <;> omega

/-- The size of the parts of a finite double. -/
structure Bounded (x : BinaryFraction) : Prop where
  mantissa_lt : x.mantissa < 2 ^ 53
  exponent_le : x.exponent ≤ maxExponent

theorem bounded_of_ofQuotient? (hd : d ≠ 0) (h : ofQuotient? negative n d = some x) :
    x.Bounded := by
  rw [ofQuotient?] at h
  split at h
  · obtain rfl := Option.some.inj h
    exact ⟨Nat.two_pow_pos 53, by show minExponent ≤ maxExponent; decide⟩
  · have hround := roundQuotient_le (fits_quotientExponent (n := n) hd)
    simp only at h
    -- rounding up to the next power of two gives a mantissa below it with the next exponent
    split at h
    · split at h
      · cases h
      · next hexponent =>
        obtain rfl := Option.some.inj h
        exact ⟨Nat.pow_lt_pow_right (by decide) (by decide), Int.not_lt.1 hexponent⟩
    · next hm =>
      split at h
      · cases h
      · next hexponent =>
        obtain rfl := Option.some.inj h
        exact ⟨Nat.lt_of_le_of_ne hround hm, Int.not_lt.1 hexponent⟩

/-- The parts of a product are those of a double again. -/
theorem bounded_of_times {z : Double} (h : x.times z = .finite y) : y.Bounded := by
  cases z with
  | finite z =>
      rw [times] at h
      simp only [Double.orInfinite] at h
      split at h
      · next hquotient =>
        obtain rfl := Double.finite.inj h
        exact bounded_of_ofQuotient? (Nat.ne_of_gt (Nat.two_pow_pos _)) hquotient
      · cases h
  | infinite negative =>
      rw [times] at h
      split at h <;> cases h
  | notANumber => cases h

/-- The integer part of a double is no larger than its parts allow. -/
theorem natAbs_truncate_lt (h : x.Bounded) :
    x.truncate.natAbs < 2 ^ 53 * 2 ^ maxExponent.toNat := by
  have hsigned : ∀ m, (x.signed m).natAbs = m := by
    intro m
    rw [signed]
    split <;> omega
  have hunit : 2 ^ x.exponent.toNat ≤ 2 ^ maxExponent.toNat :=
    Nat.pow_le_pow_right (by decide) (Int.toNat_le_toNat h.exponent_le)
  rw [truncate]
  split
  · rw [hsigned]
    exact Nat.lt_of_lt_of_le (Nat.mul_lt_mul_of_pos_right h.mantissa_lt (Nat.two_pow_pos _))
      (Nat.mul_le_mul_left _ hunit)
  · rw [hsigned]
    calc
      x.mantissa / 2 ^ (-x.exponent).toNat ≤ x.mantissa := Nat.div_le_self _ _
      _ < 2 ^ 53 := h.mantissa_lt
      _ ≤ 2 ^ 53 * 2 ^ maxExponent.toNat := Nat.le_mul_of_pos_right _ (Nat.two_pow_pos _)

end DecisionTrace.BinaryFraction
