import DecisionTrace.Text.Decimal
import Mathlib.Algebra.Group.Nat.Defs

/-!
# Numerals that are read back

A natural number is read back from its numeral (`readNatural?_naturalDigits`), and the length of the
numeral says below which power of ten the number lies (`length_naturalDigits_le_iff`). So the limit
on the digits of a numeral is a limit on the number. Other numerals, with digits of any script and
with zeros in front, denote numbers below the power of their length as well (`exists_readNatural?`).
-/

namespace DecisionTrace.Text

variable {d k n : Nat} {c : Char}

/-! ## Digits -/

theorem digitValue?_digitChar (h : d < 10) : digitValue? (digitChar d) = some d := by
  have hall : ∀ d < 10, digitValue? (digitChar d) = some d := by decide
  exact hall d h

theorem isDigit_digitChar (h : d < 10) : isDigit (digitChar d) = true := by
  rw [isDigit, digitValue?_digitChar h]
  rfl

theorem lt_of_digitValue? (h : digitValue? c = some d) : d < 10 := by
  rw [digitValue?, Option.map_eq_some_iff] at h
  obtain ⟨first, hfirst, rfl⟩ := h
  have hrange := List.find?_some hfirst
  simp only [Bool.and_eq_true, decide_eq_true_eq] at hrange
  omega

theorem exists_of_mem_naturalDigits (h : c ∈ naturalDigits n) : ∃ d < 10, c = digitChar d := by
  induction n using naturalDigits.induct with
  | case1 n hn =>
      rw [naturalDigits, if_pos hn, List.mem_singleton] at h
      exact ⟨n, hn, h⟩
  | case2 n hn ih =>
      rw [naturalDigits, if_neg hn, List.mem_append, List.mem_singleton] at h
      rcases h with h | h
      · exact ih h
      · exact ⟨n % 10, Nat.mod_lt n (by decide), h⟩

theorem isDigit_of_mem_naturalDigits (h : c ∈ naturalDigits n) : isDigit c = true := by
  obtain ⟨d, hd, rfl⟩ := exists_of_mem_naturalDigits h
  exact isDigit_digitChar hd

theorem naturalDigits_ne_nil (n : Nat) : naturalDigits n ≠ [] := by
  rw [naturalDigits]
  split <;> simp

/-- The numeral of an integer that is not negative has digits only. -/
theorem toList_integer (n : Nat) : (integer n).toList = naturalDigits n := by
  have hnatural : integer n = natural n := rfl
  rw [hnatural, natural, String.toList_ofList]

/-- The numeral of every integer ends with a digit. -/
theorem exists_getLast?_integer (i : Int) :
    ∃ c, (integer i).toList.getLast? = some c ∧ isDigit c = true := by
  have hnatural (n : Nat) : ∃ c, (naturalDigits n).getLast? = some c ∧ isDigit c = true := by
    have hlast := List.getLast?_eq_some_getLast (naturalDigits_ne_nil n)
    exact ⟨_, hlast, isDigit_of_mem_naturalDigits (List.getLast_mem (naturalDigits_ne_nil n))⟩
  cases i with
  | ofNat n =>
      have hdigits : (integer (.ofNat n)).toList = naturalDigits n := toList_integer n
      rw [hdigits]
      exact hnatural n
  | negSucc n =>
      obtain ⟨c, hlast, hc⟩ := hnatural (n + 1)
      refine ⟨c, ?_, hc⟩
      rw [integer, String.toList_append, List.getLast?_append, natural, String.toList_ofList, hlast]
      rfl

/-! ## Reading -/

/-- A number with a digit put behind it. -/
def appendDigit (n : Option Nat) (c : Char) : Option Nat := do
  return 10 * (← n) + (← digitValue? c)

theorem readNatural?_eq_foldl {cs : List Char} (h : cs ≠ []) :
    readNatural? cs = cs.foldl appendDigit (some 0) := by
  cases cs with
  | nil => exact absurd rfl h
  | cons c cs => rfl

theorem appendDigit_digitChar (h : d < 10) : appendDigit (some n) (digitChar d) =
    some (10 * n + d) := by
  rw [appendDigit, digitValue?_digitChar h]
  rfl

theorem foldl_naturalDigits (n : Nat) :
    (naturalDigits n).foldl appendDigit (some 0) = some n := by
  induction n using naturalDigits.induct with
  | case1 n hn =>
      rw [naturalDigits, if_pos hn, List.foldl_cons, List.foldl_nil, appendDigit_digitChar hn]
      simp
  | case2 n hn ih =>
      have hmod : n % 10 < 10 := Nat.mod_lt n (by decide)
      rw [naturalDigits, if_neg hn, List.foldl_append, ih, List.foldl_cons, List.foldl_nil,
        appendDigit_digitChar hmod, Nat.div_add_mod]

/-- A natural number is read back from its numeral. -/
theorem readNatural?_naturalDigits (n : Nat) : readNatural? (naturalDigits n) = some n := by
  rw [readNatural?_eq_foldl (naturalDigits_ne_nil n), foldl_naturalDigits]

/-- Different numbers have different numerals. -/
theorem natural_injective : Function.Injective natural := by
  intro m n h
  have hdigits : naturalDigits m = naturalDigits n := String.ofList_injective h
  have hread := congrArg readNatural? hdigits
  rw [readNatural?_naturalDigits, readNatural?_naturalDigits] at hread
  exact Option.some.inj hread

/-- A digit behind a number makes ten numbers of it. -/
theorem exists_foldl_appendDigit {digits : List Char} (h : ∀ c ∈ digits, isDigit c = true)
    (n : Nat) : ∃ m, digits.foldl appendDigit (some n) = some m ∧
      m < (n + 1) * 10 ^ digits.length := by
  induction digits generalizing n with
  | nil => exact ⟨n, rfl, by simp⟩
  | cons c digits ih =>
      rw [List.forall_mem_cons] at h
      obtain ⟨d, hd⟩ := Option.isSome_iff_exists.1 h.1
      have hlt := lt_of_digitValue? hd
      have hstep : appendDigit (some n) c = some (10 * n + d) := by
        rw [appendDigit, hd]
        rfl
      obtain ⟨m, hm, hbound⟩ := ih h.2 (10 * n + d)
      refine ⟨m, by rw [List.foldl_cons, hstep, hm], Nat.lt_of_lt_of_le hbound ?_⟩
      rw [List.length_cons, Nat.pow_succ', ← Nat.mul_assoc]
      exact Nat.mul_le_mul_right _ (by omega)

/-- Every text of digits is a numeral, and its length bounds the number. -/
theorem exists_readNatural? {digits : List Char} (hne : digits ≠ [])
    (h : ∀ c ∈ digits, isDigit c = true) :
    ∃ n, readNatural? digits = some n ∧ n < 10 ^ digits.length := by
  obtain ⟨n, hn, hbound⟩ := exists_foldl_appendDigit h 0
  rw [Nat.zero_add, Nat.one_mul] at hbound
  exact ⟨n, by rw [readNatural?_eq_foldl hne, hn], hbound⟩

/-! ## Length -/

/-- A numeral has at most `k` digits exactly if the number is below the power `k` of ten. -/
theorem length_naturalDigits_le_iff (hk : 0 < k) :
    (naturalDigits n).length ≤ k ↔ n < 10 ^ k := by
  induction n using naturalDigits.induct generalizing k with
  | case1 n hn =>
      have hpow : 10 ^ 1 ≤ 10 ^ k := Nat.pow_le_pow_right (by decide) hk
      rw [naturalDigits, if_pos hn, List.length_singleton]
      omega
  | case2 n hn ih =>
      rw [naturalDigits, if_neg hn, List.length_append, List.length_singleton]
      obtain ⟨j, rfl⟩ : ∃ j, k = j + 1 := ⟨k - 1, by omega⟩
      rw [Nat.add_le_add_iff_right, Nat.pow_succ, ← Nat.div_lt_iff_lt_mul (by decide)]
      cases j with
      | zero =>
          have hlen := List.length_pos_iff.2 (naturalDigits_ne_nil (n / 10))
          omega
      | succ j => exact ih (Nat.succ_pos j)

theorem exceedsDigits_eq_false_iff {i : Int} :
    exceedsDigits i = false ↔ i.natAbs < 10 ^ maxDigits := by
  rw [exceedsDigits, decide_eq_false_iff_not, Nat.not_le, Nat.pow_eq]

/-- The numerals within the limit are those of the numbers that do not exceed it. -/
theorem length_naturalDigits_le_maxDigits_iff :
    (naturalDigits n).length ≤ maxDigits ↔ exceedsDigits n = false := by
  rw [length_naturalDigits_le_iff (by decide), exceedsDigits_eq_false_iff, Int.natAbs_natCast]

end DecisionTrace.Text
