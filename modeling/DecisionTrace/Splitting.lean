import DecisionTrace.IntegerClauses

/-!
# Splitting

A literal is true or false. Once it is true, the clauses that hold it are done and the others lose
its negation, so clauses are satisfiable exactly when they are so after one of the two choices. Each
choice leaves fewer occurrences of literals, which ends the splitting: at no clause, which every
valuation satisfies, or at an empty one, which none does.

The main statement is `splits_iff`.
-/

namespace DecisionTrace

namespace IntegerClauses

/-- The clauses once a literal is true. -/
def assign (l : Int) (cs : IntegerClauses) : IntegerClauses :=
  (cs.filter fun c => l ∉ c).map fun c => c.filter (· ≠ -l)

/-- The number of literal occurrences. -/
def weight (cs : IntegerClauses) : Nat :=
  cs.foldr (fun c n => c.length + n) 0

theorem weight_cons (c : List Int) (cs : IntegerClauses) :
    weight (c :: cs) = c.length + weight cs :=
  rfl

theorem assign_cons (l : Int) (c : List Int) (cs : IntegerClauses) :
    assign l (c :: cs) = if l ∈ c then assign l cs else c.filter (· ≠ -l) :: assign l cs := by
  by_cases h : l ∈ c <;> simp [assign, h]

theorem weight_assign_le (l : Int) (cs : IntegerClauses) : weight (assign l cs) ≤ weight cs := by
  induction cs with
  | nil => exact Nat.le_refl _
  | cons c cs ih =>
    have := List.length_filter_le (fun m => decide (m ≠ -l)) c
    rw [assign_cons, weight_cons]
    split
    · omega
    · rw [weight_cons]; omega

/-- Fixing the first literal of the first clause, either way, leaves fewer occurrences. -/
theorem weight_assign_lt {l m : Int} {c : List Int} {cs : IntegerClauses} (h : l = m ∨ l = -m) :
    weight (assign l ((m :: c) :: cs)) < weight ((m :: c) :: cs) := by
  have := weight_assign_le l cs
  rw [assign_cons, weight_cons, List.length_cons]
  split
  · omega
  · next hl =>
    have hm : m = -l := by
      rcases h with rfl | rfl
      · exact absurd List.mem_cons_self hl
      · omega
    have := List.length_filter_le (fun n => decide (n ≠ -l)) c
    rw [weight_cons, List.filter_cons_of_neg (by simpa using hm)]
    omega

/-- Whether the clauses are satisfiable, by splitting on the first literal. -/
def splits : IntegerClauses → Bool
  | [] => true
  | [] :: _ => false
  | (l :: c) :: cs =>
    splits (assign l ((l :: c) :: cs)) || splits (assign (-l) ((l :: c) :: cs))
termination_by cs => weight cs
decreasing_by
  · exact weight_assign_lt (.inl rfl)
  · exact weight_assign_lt (.inr rfl)

/-- What is left after a choice is satisfied by a valuation that makes it, and by one that satisfies
all the clauses without the literal if that is its own negation. -/
theorem satisfiedBy_assign {v : Nat → Bool} {l : Int} {cs : IntegerClauses}
    (h : cs.satisfiedBy v = true) (hl : l ≠ 0 → holds v l = true) :
    (assign l cs).satisfiedBy v = true := by
  rw [satisfiedBy_iff] at h ⊢
  intro d hd
  obtain ⟨c, hc, rfl⟩ := List.mem_map.1 hd
  obtain ⟨hc, hlc⟩ := List.mem_filter.1 hc
  obtain ⟨m, hm, hv⟩ := h c hc
  refine ⟨m, List.mem_filter.2 ⟨hm, ?_⟩, hv⟩
  rw [decide_eq_true_eq] at hlc ⊢
  rintro rfl
  by_cases hz : l = 0
  · subst hz; exact hlc hm
  · rw [holds_neg hz, hl hz] at hv; exact absurd hv (by simp)

/-- A valuation of what is left after a choice satisfies all the clauses once it makes the
choice. -/
theorem satisfiable_of_assign {l : Int} {cs : IntegerClauses} (h : Satisfiable (assign l cs)) :
    Satisfiable cs := by
  obtain ⟨v, hv⟩ := h
  rw [satisfiedBy_iff] at hv
  refine ⟨fun n => if n = l.natAbs then decide (0 ≤ l) else v n, ?_⟩
  rw [satisfiedBy_iff]
  intro c hc
  by_cases hl : l ∈ c
  · exact ⟨l, hl, by simp [holds]⟩
  · obtain ⟨m, hm, hvm⟩ := hv (c.filter (· ≠ -l))
      (List.mem_map.2 ⟨c, List.mem_filter.2 ⟨hc, by simpa using hl⟩, rfl⟩)
    obtain ⟨hmc, hne⟩ := List.mem_filter.1 hm
    have hne : m ≠ -l := by simpa using hne
    have : m.natAbs ≠ l.natAbs := fun he => by
      rcases Int.natAbs_eq_natAbs_iff.1 he with rfl | rfl
      · exact hl hmc
      · exact hne rfl
    exact ⟨m, hmc, by simpa [holds, this] using hvm⟩

/-- Splitting finds out whether clauses are satisfiable. -/
theorem splits_iff (cs : IntegerClauses) : splits cs = true ↔ Satisfiable cs := by
  fun_induction splits cs with
  | case1 => exact ⟨fun _ => ⟨fun _ => true, rfl⟩, fun _ => rfl⟩
  | case2 cs =>
    refine ⟨fun h => by simp at h, ?_⟩
    rintro ⟨v, hv⟩
    simp [satisfiedBy] at hv
  | case3 l c cs ih₁ ih₂ =>
    rw [Bool.or_eq_true, ih₁, ih₂]
    refine ⟨fun h => h.elim satisfiable_of_assign satisfiable_of_assign, ?_⟩
    rintro ⟨v, hv⟩
    by_cases hl : holds v l = true
    · exact .inl ⟨v, satisfiedBy_assign hv fun _ => hl⟩
    · refine .inr ⟨v, satisfiedBy_assign hv fun hz => ?_⟩
      rw [holds_neg (by omega)]
      simpa using hl

end IntegerClauses

end DecisionTrace
