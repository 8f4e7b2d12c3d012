import DecisionTrace.IntegerClauses
import DecisionTrace.Proofs.Models
import Mathlib.Data.List.Forall2

/-!
# Numbered clauses

Integer clauses hold everything that a formula says. The numbers are those of its variables, from
one on without a gap, and a variable gets its number when it first occurs; so each integer can be
read back as a literal, and the clauses with it. Values for the names are values for the numbers,
and they satisfy the formula exactly if they satisfy the integer clauses
(`Formula.encodes_toIntegers`).

All statements rest on one fact: the number of a variable is its place in the order of the variables
(`numberIn_of_getElem?`, `exists_numberIn`).
-/

namespace DecisionTrace

variable {order : List String} {name : String} {k : Nat} {l : Literal} {f : Formula}
  {m : Assignment} {v : Nat → Bool}

/-! ## The number of a name -/

theorem exists_numberIn (h : name ∈ order) :
    ∃ k, order[k]? = some name ∧ numberIn order name = (k + 1 : Nat) := by
  rw [numberIn]
  cases hk : order.findIdx? (· = name) with
  | none =>
      rw [List.findIdx?_eq_none_iff] at hk
      simpa using hk name h
  | some k =>
      obtain ⟨hlt, hname, -⟩ := List.findIdx?_eq_some_iff_getElem.1 hk
      refine ⟨k, ?_, rfl⟩
      rw [List.getElem?_eq_getElem hlt, of_decide_eq_true hname]

/-- In an order without repetitions the number of a name is its place. -/
theorem numberIn_of_getElem? (hd : order.Nodup) (h : order[k]? = some name) :
    numberIn order name = (k + 1 : Nat) := by
  obtain ⟨j, hj, hnumber⟩ := exists_numberIn (List.mem_of_getElem? h)
  have hlt : k < order.length := (List.getElem?_eq_some_iff.1 h).1
  obtain rfl : k = j := (List.getElem?_inj hlt hd).1 (h.trans hj.symm)
  exact hnumber

theorem natAbs_toInteger (order : List String) (l : Literal) :
    (l.toInteger order).natAbs = (numberIn order l.name).natAbs := by
  rw [Literal.toInteger]
  split
  · exact Int.natAbs_neg _
  · rfl

/-- The integer of a literal is the number of a name with a sign, so it is not zero. -/
theorem toInteger_spec (h : l.name ∈ order) :
    l.toInteger order ≠ 0 ∧ (l.toInteger order).natAbs ≤ order.length := by
  obtain ⟨k, hk, hnumber⟩ := exists_numberIn h
  have hlt := (List.getElem?_eq_some_iff.1 hk).1
  have habs := natAbs_toInteger order l
  rw [hnumber] at habs
  omega

/-- The integer of a literal carries its polarity as the sign. -/
theorem decide_toInteger_lt (h : l.name ∈ order) : decide (l.toInteger order < 0) = l.negated := by
  obtain ⟨k, -, hnumber⟩ := exists_numberIn h
  rw [Literal.toInteger, hnumber]
  cases l.negated with
  | true =>
      rw [if_pos rfl, decide_eq_true_eq]
      omega
  | false =>
      rw [if_neg Bool.false_ne_true, decide_eq_false_iff_not]
      omega

/-! ## Integers as literals -/

/-- The literal that an integer stands for. -/
def Literal.ofInteger? (order : List String) (k : Int) : Option Literal :=
  order[k.natAbs - 1]?.map fun name => ⟨name, decide (k < 0)⟩

theorem Literal.ofInteger?_toInteger (h : l.name ∈ order) :
    Literal.ofInteger? order (l.toInteger order) = some l := by
  obtain ⟨k, hk, hnumber⟩ := exists_numberIn h
  rw [Literal.ofInteger?, natAbs_toInteger, hnumber, Int.natAbs_natCast, Nat.add_sub_cancel, hk,
    decide_toInteger_lt h]
  rfl

/-! ## Values of names and of numbers -/

/-- The values of numbers that go with values of names; the number of a free name is true. -/
def valuation (order : List String) (m : Assignment) : Nat → Bool :=
  fun k => (order[k - 1]?.bind m.value?).getD true

/-- The numbers have the values of the names that are bound. -/
def Follows (order : List String) (m : Assignment) (v : Nat → Bool) : Prop :=
  ∀ name ∈ order, ∀ value, m.value? name = some value → v (numberIn order name).natAbs = value

theorem follows_valuation (order : List String) (m : Assignment) :
    Follows order m (valuation order m) := by
  intro name hname value hvalue
  obtain ⟨k, hk, hnumber⟩ := exists_numberIn hname
  rw [hnumber, Int.natAbs_natCast, valuation, Nat.add_sub_cancel, hk, Option.bind_some, hvalue,
    Option.getD_some]

/-- A literal holds for numbers that have its value. -/
theorem holds_toInteger (hname : l.name ∈ order) :
    IntegerClauses.holds v (l.toInteger order) = true ↔
      v (numberIn order l.name).natAbs = l.satisfyingValue := by
  have hsign : decide (0 ≤ l.toInteger order) = l.satisfyingValue := by
    rw [Literal.satisfyingValue, ← decide_toInteger_lt hname, ← decide_not]
    exact decide_eq_decide.2 Int.not_lt.symm
  rw [IntegerClauses.holds, natAbs_toInteger, hsign, beq_iff_eq]

theorem IntegerClauses.satisfiedBy_toIntegers_iff : f.toIntegers.satisfiedBy v = true ↔
    ∀ c ∈ f.clauses, ∃ l ∈ c.literals, v (numberIn f.names l.name).natAbs = l.satisfyingValue := by
  rw [IntegerClauses.satisfiedBy_iff, Formula.toIntegers]
  simp only [List.forall_mem_map]
  refine forall₂_congr fun c hc => ?_
  simp only [List.mem_map, exists_exists_and_eq_and]
  refine exists_congr fun l => and_congr_right fun hl => ?_
  exact holds_toInteger (Formula.mem_names.2 ⟨c, hc, l, hl, rfl⟩)

/-- Numbers that follow a model satisfy the integer clauses. -/
theorem satisfiedBy_toIntegers (hfollows : Follows f.names m v) (hm : f.satisfiedBy m = true) :
    f.toIntegers.satisfiedBy v = true := by
  rw [IntegerClauses.satisfiedBy_toIntegers_iff]
  intro c hc
  obtain ⟨l, hl, hvalue⟩ := Clause.satisfiedBy_iff.1 (Formula.satisfiedBy_iff.1 hm c hc)
  exact ⟨l, hl, hfollows l.name (Formula.mem_names.2 ⟨c, hc, l, hl, rfl⟩) _ hvalue⟩

/-- Names whose values the numbers follow satisfy the formula, if each variable has a value. -/
theorem satisfiedBy_of_toIntegers (hfollows : Follows f.names m v)
    (htotal : ∀ name ∈ f.names, m.binds name = true) (hv : f.toIntegers.satisfiedBy v = true) :
    f.satisfiedBy m = true := by
  rw [Formula.satisfiedBy_iff]
  intro c hc
  obtain ⟨l, hl, hnumber⟩ := IntegerClauses.satisfiedBy_toIntegers_iff.1 hv c hc
  have hname : l.name ∈ f.names := Formula.mem_names.2 ⟨c, hc, l, hl, rfl⟩
  obtain ⟨value, hvalue⟩ := Option.isSome_iff_exists.1 (htotal l.name hname)
  have hsame : value = l.satisfyingValue := (hfollows l.name hname value hvalue).symm.trans hnumber
  exact Clause.satisfiedBy_iff.2 ⟨l, hl, hsame ▸ hvalue⟩

/-! ## The order of the numbers -/

namespace Formula

theorem nodup_names (f : Formula) : f.names.Nodup :=
  nodup_firstSeen _

theorem bounded_toIntegers (f : Formula) :
    ∀ c ∈ f.toIntegers, ∀ k ∈ c, k ≠ 0 ∧ k.natAbs ≤ f.names.length := by
  intro c hc k hk
  obtain ⟨clause, hclause, rfl⟩ := List.mem_map.1 hc
  obtain ⟨l, hl, rfl⟩ := List.mem_map.1 hk
  exact toInteger_spec (mem_names.2 ⟨clause, hclause, l, hl, rfl⟩)

/-- The numbers of the integer clauses are those of the literals in reading order. -/
theorem numbers_toIntegers (f : Formula) : f.toIntegers.flatten.map Int.natAbs =
    (f.literals.map Literal.name).map fun name => (numberIn f.names name).natAbs := by
  rw [toIntegers, literals, List.map_flatten, List.flatMap_def, List.map_flatten, List.map_flatten]
  simp only [List.map_map, Function.comp_def, natAbs_toInteger]

/-- The numbers grow along the order of the variables. -/
theorem pairwise_numberIn (f : Formula) : f.names.Pairwise fun x y =>
    (numberIn f.names x).natAbs < (numberIn f.names y).natAbs := by
  rw [List.pairwise_iff_getElem]
  intro i j hi hj hij
  rw [numberIn_of_getElem? f.nodup_names (List.getElem?_eq_getElem hi),
    numberIn_of_getElem? f.nodup_names (List.getElem?_eq_getElem hj)]
  omega

/-- Before the number of a variable all smaller numbers have occurred. -/
theorem mem_of_numbers_eq {before after : List Nat} {i j : Nat}
    (h : f.toIntegers.flatten.map Int.natAbs = before ++ i :: after) (hj : 1 ≤ j) (hij : j < i) :
    j ∈ before := by
  rw [numbers_toIntegers] at h
  obtain ⟨xs, rest, hsplit, rfl, hrest⟩ := List.map_eq_append_iff.1 h
  obtain ⟨x, ys, rfl, hx, -⟩ := List.map_eq_cons_iff.1 hrest
  have hmem (name : String) : name ∈ f.names ↔ name ∈ xs ++ x :: ys := by
    rw [names, mem_firstSeen, hsplit]
  obtain ⟨k, hk, hnumber⟩ := exists_numberIn ((hmem x).2 (by simp))
  rw [hnumber, Int.natAbs_natCast] at hx
  -- the name that has the number `j` stands before `x` in the order of the variables
  have hlt : j - 1 < f.names.length := by
    have hbound := (List.getElem?_eq_some_iff.1 hk).1
    omega
  have hy := numberIn_of_getElem? f.nodup_names (List.getElem?_eq_getElem hlt)
  rw [Nat.sub_add_cancel hj] at hy
  by_contra hbefore
  have hxs : f.names[j - 1] ∉ xs := by
    intro hin
    exact hbefore (List.mem_map.2 ⟨_, hin, by rw [hy, Int.natAbs_natCast]⟩)
  have hne : f.names[j - 1] ≠ x := by
    intro heq
    rw [heq, hnumber] at hy
    omega
  have hys : f.names[j - 1] ∈ ys := by
    have hin := (hmem _).1 (List.getElem_mem hlt)
    simpa [hxs, hne] using hin
  have horder : [x, f.names[j - 1]].Sublist f.names := by
    have hpair := pair_sublist_firstSeen hne hxs hys
    rwa [← hsplit, ← names] at hpair
  have hgrow := List.pairwise_pair.1 (f.pairwise_numberIn.sublist horder)
  rw [hy, hnumber] at hgrow
  omega

/-- Integer clauses that hold everything a formula says: its literals in order under the numbers of
the variables, which begin at one and each of which occurs only after all smaller ones, and the
meaning of the formula. -/
structure Encodes (f : Formula) (cs : IntegerClauses) : Prop where
  bounded : ∀ c ∈ cs, ∀ k ∈ c, k ≠ 0 ∧ k.natAbs ≤ f.names.length
  occurs : ∀ i, 1 ≤ i → i ≤ f.names.length → i ∈ cs.flatten.map Int.natAbs
  increasing : ∀ before i after, cs.flatten.map Int.natAbs = before ++ i :: after →
    ∀ j, 1 ≤ j → j < i → j ∈ before
  read_back : cs.map (fun c => c.map (Literal.ofInteger? f.names)) =
    f.clauses.map fun c => c.literals.map some
  satisfied_iff : ∀ m : Assignment, (∀ name ∈ f.names, m.binds name = true) →
    (f.satisfiedBy m = true ↔ cs.satisfiedBy (valuation f.names m) = true)

/-- Numbering the variables of a formula loses nothing. -/
theorem encodes_toIntegers (f : Formula) : f.Encodes f.toIntegers where
  bounded := f.bounded_toIntegers
  occurs := by
    intro i hpos hle
    have hlt : i - 1 < f.names.length := by omega
    rw [numbers_toIntegers, List.mem_map]
    refine ⟨f.names[i - 1], mem_firstSeen.1 (List.getElem_mem hlt), ?_⟩
    rw [numberIn_of_getElem? f.nodup_names (List.getElem?_eq_getElem hlt), Int.natAbs_natCast,
      Nat.sub_add_cancel hpos]
  increasing := fun _ _ _ hsplit _ hpos hlt => mem_of_numbers_eq hsplit hpos hlt
  read_back := by
    rw [toIntegers, List.map_map]
    refine List.map_congr_left fun c hc => ?_
    rw [Function.comp_apply, List.map_map]
    refine List.map_congr_left fun l hl => ?_
    exact Literal.ofInteger?_toInteger (mem_names.2 ⟨c, hc, l, hl, rfl⟩)
  satisfied_iff := by
    intro m htotal
    have hfollows := follows_valuation f.names m
    exact ⟨satisfiedBy_toIntegers hfollows, satisfiedBy_of_toIntegers hfollows htotal⟩

/-- A formula whose names recur in another order and with both polarities. -/
def recurring : Formula where
  clauses := [.ofCons ⟨"B", false⟩ [⟨"A", true⟩, ⟨"B", true⟩], .ofCons ⟨"C", true⟩ [⟨"B", true⟩]]

/-- Values for all its variables. -/
def recurringValues : Assignment :=
  .ofPairs [("A", false), ("B", true), ("C", false)]

theorem encodes_toIntegers_recurring :
    recurring.toIntegers = [[1, -2, -1], [-3, -1]] ∧
    (∀ name ∈ recurring.names, recurringValues.binds name = true) ∧
    recurring.satisfiedBy recurringValues = true ∧
    recurring.toIntegers.satisfiedBy (valuation recurring.names recurringValues) = true := by
  have htotal : ∀ name ∈ recurring.names, recurringValues.binds name = true := by decide +kernel
  have hmodel : recurring.satisfiedBy recurringValues = true := by decide +kernel
  refine ⟨by decide +kernel, htotal, hmodel, ?_⟩
  exact ((encodes_toIntegers recurring).satisfied_iff recurringValues htotal).1 hmodel

end Formula

end DecisionTrace
