/-!
# First-seen order

The distinct items of a list in the order in which each first occurs. This order numbers the
variables of a formula and decides which of them a search branches on first.
-/

namespace DecisionTrace

/-- The distinct items of a list, each at the place of its first occurrence. -/
def firstSeen {α : Type} [DecidableEq α] : List α → List α
  | [] => []
  | x :: xs => x :: (firstSeen xs).filter (· ≠ x)

variable {α : Type} [DecidableEq α]

@[simp]
theorem mem_firstSeen {x : α} {xs : List α} : x ∈ firstSeen xs ↔ x ∈ xs := by
  induction xs with
  | nil => simp [firstSeen]
  | cons y ys ih =>
    simp only [firstSeen, List.mem_cons, List.mem_filter, ih, decide_eq_true_eq]
    constructor
    · rintro (h | h)
      · exact Or.inl h
      · exact Or.inr h.1
    · rintro (h | h)
      · exact Or.inl h
      · by_cases hx : x = y
        · exact Or.inl hx
        · exact Or.inr ⟨h, hx⟩

theorem nodup_firstSeen (xs : List α) : (firstSeen xs).Nodup := by
  induction xs with
  | nil => simp [firstSeen]
  | cons y ys ih =>
    simp only [firstSeen, List.nodup_cons, List.mem_filter]
    exact ⟨by simp, ih.filter _⟩

/-- What follows a list adds the items that are new. -/
theorem firstSeen_append (xs ys : List α) :
    firstSeen (xs ++ ys) = firstSeen xs ++ (firstSeen ys).filter (· ∉ xs) := by
  induction xs with
  | nil => exact (List.filter_eq_self.2 fun y _ => by simp).symm
  | cons x xs ih =>
    rw [List.cons_append, firstSeen, ih, List.filter_append, List.filter_filter, firstSeen,
      List.cons_append]
    congr 2
    apply List.filter_congr
    intro y _
    by_cases hy : y = x <;> simp [hy]

/-- Of two items the one that occurs first is listed first. -/
theorem pair_sublist_firstSeen {x y : α} {xs ys : List α} (hne : y ≠ x) (hxs : y ∉ xs)
    (hys : y ∈ ys) : [x, y].Sublist (firstSeen (xs ++ x :: ys)) := by
  have hy : y ∈ (firstSeen ys).filter (· ≠ x) := by simpa [hne] using hys
  rw [firstSeen_append, firstSeen]
  by_cases hx : x ∈ xs
  · have hmem : y ∈ (x :: (firstSeen ys).filter (· ≠ x)).filter (· ∉ xs) :=
      List.mem_filter.2 ⟨List.mem_cons_of_mem x hy, by simpa using hxs⟩
    exact (List.singleton_sublist.2 (mem_firstSeen.2 hx)).append (List.singleton_sublist.2 hmem)
  · rw [List.filter_cons_of_pos (by simpa using hx)]
    have hmem : y ∈ ((firstSeen ys).filter (· ≠ x)).filter (· ∉ xs) :=
      List.mem_filter.2 ⟨hy, by simpa using hxs⟩
    exact ((List.singleton_sublist.2 hmem).cons_cons x).trans (List.sublist_append_right _ _)

end DecisionTrace
