import DecisionTrace.IntegerClauses
import Std.Data.HashSet

/-!
# Clauses that state parities

A valuation falsifies a clause on different variables in one way only. So the clauses on the same
variables that are falsified by the valuations of one parity say together that the sum of the
variables, counted modulo two, has the other parity. Such equations can be added up, and when the
variables cancel and an odd sum is left, the clauses have no model.

This is worth a look of its own, since a search may take very long over what such a sum shows at
once. The main statement is `not_satisfiable_of_contradictsParity`.
-/

namespace DecisionTrace

/-- The statement that the sum of some variables, which are increasing, is odd or that it is
even. -/
structure ParityEquation where
  terms : List Nat
  odd : Bool

namespace ParityEquation

/-- The sum of variables modulo two. -/
def sum (v : Nat → Bool) : List Nat → Bool
  | [] => false
  | n :: ns => v n ^^ sum v ns

/-- A valuation satisfies an equation. -/
def Holds (v : Nat → Bool) (e : ParityEquation) : Prop :=
  sum v e.terms = e.odd

/-- The variables that are in just one of two increasing lists. -/
def merge : List Nat → List Nat → List Nat
  | [], ms => ms
  | ns, [] => ns
  | n :: ns, m :: ms =>
    if n < m then n :: merge ns (m :: ms)
    else if m < n then m :: merge (n :: ns) ms
    else merge ns ms
termination_by ns ms => ns.length + ms.length

theorem sum_merge (v : Nat → Bool) (ns ms : List Nat) :
    sum v (merge ns ms) = (sum v ns ^^ sum v ms) := by
  fun_induction merge ns ms with
  | case1 ms => simp [sum]
  | case2 ns => simp [sum]
  | case3 n ns m ms h ih => simp only [sum, ih, Bool.xor_assoc]
  | case4 n ns m ms h h' ih =>
    simp only [sum, ih]
    cases v n <;> cases v m <;> cases sum v ns <;> cases sum v ms <;> rfl
  | case5 n ns m ms h h' ih =>
    obtain rfl : n = m := by omega
    simp only [sum, ih]
    cases v n <;> cases sum v ns <;> cases sum v ms <;> rfl

/-- The sum of two equations. -/
def add (e d : ParityEquation) : ParityEquation :=
  ⟨merge e.terms d.terms, e.odd ^^ d.odd⟩

theorem holds_add {v : Nat → Bool} {e d : ParityEquation} (he : e.Holds v) (hd : d.Holds v) :
    (e.add d).Holds v := by
  unfold Holds at *
  rw [add, sum_merge, he, hd]

/-- The clauses that are falsified by the valuations of some variables that have a given sum. -/
def excluding : List Nat → (odd : Bool) → List (List Int)
  | [], odd => if odd then [] else [[]]
  | n :: ns, odd =>
    (excluding ns odd).map (fun c => (n : Int) :: c) ++
      (excluding ns !odd).map fun c => -(n : Int) :: c

theorem sum_of_excluding {v : Nat → Bool} {ns : List Nat} {odd : Bool} (hns : ∀ n ∈ ns, n ≠ 0)
    (h : ∀ c ∈ excluding ns odd, ∃ l ∈ c, IntegerClauses.holds v l = true) :
    sum v ns = !odd := by
  induction ns generalizing odd with
  | nil =>
    cases odd with
    | true => rfl
    | false =>
      obtain ⟨l, hl, -⟩ := h [] (by simp [excluding])
      cases hl
  | cons n ns ih =>
    have hn : n ≠ 0 := hns n List.mem_cons_self
    have hrest : ∀ m ∈ ns, m ≠ 0 := fun m hm => hns m (List.mem_cons_of_mem _ hm)
    have hpos : IntegerClauses.holds v (n : Int) = v n := by
      simp [IntegerClauses.holds]
    have hneg : IntegerClauses.holds v (-(n : Int)) = !v n := by
      simp [IntegerClauses.holds, hn]
    cases hv : v n with
    | false =>
      have hsum : sum v ns = !odd := ih hrest fun c hc => by
        obtain ⟨l, hl, hvl⟩ := h ((n : Int) :: c)
          (List.mem_append_left _ (List.mem_map_of_mem hc))
        rcases List.mem_cons.1 hl with rfl | hl
        · rw [hpos, hv] at hvl; cases hvl
        · exact ⟨l, hl, hvl⟩
      rw [sum, hv, hsum, Bool.false_xor]
    | true =>
      have hsum : sum v ns = !!odd := ih hrest fun c hc => by
        obtain ⟨l, hl, hvl⟩ := h (-(n : Int) :: c)
          (List.mem_append_right _ (List.mem_map_of_mem hc))
        rcases List.mem_cons.1 hl with rfl | hl
        · rw [hneg, hv] at hvl; cases hvl
        · exact ⟨l, hl, hvl⟩
      rw [sum, hv, hsum, Bool.true_xor, Bool.not_not]

/-- The equation without the first variables of others, which are added to it in turn. -/
def reduce (rows : List ParityEquation) (e : ParityEquation) : ParityEquation :=
  rows.foldl (fun e row => if row.terms.head?.any (· ∈ e.terms) then e.add row else e) e

theorem holds_reduce {v : Nat → Bool} {rows : List ParityEquation} {e : ParityEquation}
    (he : e.Holds v) (hrows : ∀ row ∈ rows, row.Holds v) : (e.reduce rows).Holds v := by
  induction rows generalizing e with
  | nil => exact he
  | cons row rows ih =>
    refine ih ?_ fun r hr => hrows r (List.mem_cons_of_mem _ hr)
    dsimp only
    split
    · exact holds_add he (hrows row List.mem_cons_self)
    · exact he

/-- Whether equations add up to an odd sum of no variables. Each is reduced by those before it,
which are given with their first variables. -/
def contradict : (equations rows : List ParityEquation) → Bool
  | [], _ => false
  | e :: es, rows =>
    let e := e.reduce rows
    if e.terms.isEmpty then e.odd || contradict es rows else contradict es (rows ++ [e])

theorem contradict_eq_false {v : Nat → Bool} {es rows : List ParityEquation}
    (hes : ∀ e ∈ es, e.Holds v) (hrows : ∀ row ∈ rows, row.Holds v) :
    contradict es rows = false := by
  induction es generalizing rows with
  | nil => rfl
  | cons e es ih =>
    have he := holds_reduce (hes e List.mem_cons_self) hrows
    have hes : ∀ e ∈ es, e.Holds v := fun d hd => hes d (List.mem_cons_of_mem _ hd)
    rw [contradict]
    split
    · next hempty =>
      rw [Holds, List.isEmpty_iff.1 hempty, sum] at he
      rw [← he, ih hes hrows]
      rfl
    · refine ih hes fun row hrow => ?_
      rcases List.mem_append.1 hrow with hrow | hrow
      · exact hrows row hrow
      · rw [List.mem_singleton.1 hrow]; exact he

end ParityEquation

namespace IntegerClauses

/-- A clause with its literals in the order of their numbers. -/
def ordered (c : List Int) : List Int :=
  c.mergeSort fun l m => l.natAbs ≤ m.natAbs

/-- The largest number of variables of the equations that are looked for. -/
def maxParityWidth : Nat := 8

/-- The equation that clauses state, if a clause is the first of those that state it. -/
def parity? (table : Std.HashSet (List Int)) (c : List Int) : Option ParityEquation :=
  let numbers := c.map Int.natAbs
  let odd := c.foldl (fun odd l => odd ^^ decide (l < 0)) false
  if c.length ≤ maxParityWidth ∧ 0 ∉ numbers ∧
      (ParityEquation.excluding numbers odd).head? = some c ∧
      (ParityEquation.excluding numbers odd).all table.contains then
    some ⟨numbers, !odd⟩
  else none

/-- Whether the parities that clauses state contradict each other. -/
def contradictsParity (cs : IntegerClauses) : Bool :=
  let cs := cs.map ordered
  ParityEquation.contradict (cs.filterMap (parity? (Std.HashSet.ofList cs))) []

theorem holds_of_parity? {v : Nat → Bool} {cs : IntegerClauses} {c : List Int} {e : ParityEquation}
    (hv : ∀ d ∈ cs, ∃ l ∈ d, holds v l = true) (h : parity? (Std.HashSet.ofList cs) c = some e) :
    e.Holds v := by
  simp only [parity?] at h
  split at h
  · next hc =>
    obtain ⟨-, hz, -, hall⟩ := hc
    cases h
    refine ParityEquation.sum_of_excluding (fun n hn hn0 => hz (hn0 ▸ hn)) fun d hd => ?_
    have := List.all_eq_true.1 hall d hd
    rw [Std.HashSet.contains_ofList] at this
    exact hv d (List.contains_iff_mem.1 this)
  · cases h

/-- Clauses whose parities contradict each other have no model. -/
theorem not_satisfiable_of_contradictsParity {cs : IntegerClauses}
    (h : cs.contradictsParity = true) : ¬ cs.Satisfiable := fun ⟨v, hv⟩ => by
  have hv : ∀ c ∈ cs.map ordered, ∃ l ∈ c, holds v l = true := fun c hc => by
    obtain ⟨d, hd, rfl⟩ := List.mem_map.1 hc
    obtain ⟨l, hl, hvl⟩ := satisfiedBy_iff.1 hv d hd
    exact ⟨l, List.mem_mergeSort.2 hl, hvl⟩
  rw [contradictsParity,
    ParityEquation.contradict_eq_false (v := v) (fun e he => ?_) (by simp)] at h
  · cases h
  · obtain ⟨c, -, hc⟩ := List.mem_filterMap.1 he
    exact holds_of_parity? hv hc

end IntegerClauses

end DecisionTrace
