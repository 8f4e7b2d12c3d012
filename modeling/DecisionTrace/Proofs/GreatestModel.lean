import DecisionTrace.Proofs.SearchTree
import Mathlib.Data.Bool.Basic
import Mathlib.Data.List.Lex

/-!
# The greatest model

A search decides its formula, and the model it returns is the first in the order in which it tries
values. Read along the variables of the formula, with true above false, no model has a greater list
of values than the returned assignment. `solve_greatestModel` is the main statement.

Two observations carry the proof. Binding more can only lower the values, for a free variable
counts as true; so a frame that ends satisfied is above every model it leaves. And two models that
part at the variable of a branch agree on all variables before it, since these are bound.
-/

namespace DecisionTrace

/-! ## Values along an order -/

namespace Assignment

variable {a b m k : Assignment} {order : List String} {v : String}

/-- The values at the names of an order, where a free name is true. -/
def valuesOn (a : Assignment) (order : List String) : List Bool :=
  order.map fun v => (a.value? v).getD true

theorem cons_le_cons_of_lt {x y : Bool} (h : x < y) (xs ys : List Bool) : x :: xs ≤ y :: ys :=
  le_of_lt (List.Lex.rel h)

/-- A longer assignment has no greater values. -/
theorem valuesOn_anti (h : a ≤ b) : b.valuesOn order ≤ a.valuesOn order := by
  induction order with
  | nil => exact le_refl _
  | cons v vs ih =>
      simp only [valuesOn, List.map_cons] at ih ⊢
      cases ha : a.value? v with
      | some w =>
          rw [h v w ha]
          exact List.cons_le_cons w ih
      | none =>
          cases hb : (b.value? v).getD true with
          | true => exact List.cons_le_cons true ih
          | false => exact cons_le_cons_of_lt (by decide) _ _

/-- Of two assignments above a third that part at its first free name, the one that is true there
has the greater values. -/
theorem valuesOn_le_of_firstFree? (hv : firstFree? order b = some v) (hm : b ≤ m)
    (hmv : m.value? v = some false) (hk : b ≤ k) (hkv : k.value? v = some true) :
    m.valuesOn order ≤ k.valuesOn order := by
  induction order with
  | nil => simp [firstFree?] at hv
  | cons w ws ih =>
      simp only [valuesOn, List.map_cons] at ih ⊢
      cases hb : b.value? w with
      | some u =>
          have hbound : (!b.binds w) = false := by simp [binds_of_value? hb]
          rw [hm w u hb, hk w u hb]
          apply List.cons_le_cons
          apply ih
          rwa [firstFree?, List.find?_cons, hbound] at hv
      | none =>
          have hfree : (!b.binds w) = true := by simp [binds_eq_false_iff.2 hb]
          have hwv : w = v := by
            rw [firstFree?, List.find?_cons, hfree] at hv
            exact Option.some.inj hv
          subst hwv
          rw [hmv, hkv]
          exact cons_le_cons_of_lt (by decide) _ _

/-- To bind a free name to true changes no value. -/
theorem valuesOn_extend_true (m : Assignment) (v : String) (order : List String) :
    (m.extend v true).valuesOn order = m.valuesOn order := by
  apply List.map_congr_left
  intro n _
  rw [value?_extend]
  cases m.value? n with
  | some w => rfl
  | none => by_cases h : n = v <;> simp [h]

/-- An assignment above a branching point is above the false branch, or above the true one once the
variable is bound. -/
theorem above_branch (hfree : b.binds v = false) (hm : b ≤ m) :
    b.extend v true ≤ m.extend v true ∨ b.extend v false ≤ m := by
  rw [extend_le_iff hfree, extend_le_iff hfree, value?_extend]
  cases hv : m.value? v with
  | none => exact Or.inl ⟨le_trans hm (le_extend m v true), by simp⟩
  | some w =>
      cases w with
      | true => exact Or.inl ⟨le_trans hm (le_extend m v true), by simp⟩
      | false => exact Or.inr ⟨hm, rfl⟩

end Assignment

/-- What is bound after a chain and a branch was bound before or is a variable of the formula. -/
theorem Formula.Derives.mem_names_of_branch {f : Formula} {a b : Assignment} {ls : List Literal}
    {v n : String} {w : Bool} (h : f.Derives a ls b) (hv : firstFree? f.names b = some v)
    (hn : (b.extend v w).binds n = true) : a.binds n = true ∨ n ∈ f.names := by
  rw [Assignment.binds_extend, Bool.or_eq_true, decide_eq_true_eq] at hn
  rcases hn with hn | rfl
  · exact h.mem_names_of_binds hn
  · exact Or.inr (free_of_firstFree? hv).1

/-! ## What the tree of a search says about models -/

namespace Explored

variable {f : Formula} {order : List String} {depth : Nat} {a b m : Assignment} {d : Finding}

/-- Below an assignment whose search finds nothing there is no model. -/
theorem not_le_of_model (h : Explored f order depth a d) (hd : d.model = none)
    (hm : f.satisfiedBy m = true) : ¬ a ≤ m := by
  induction h generalizing m with
  | failed chain clause falsified =>
      intro ham
      have hb := chain.le_of_model hm ham
      rw [Formula.satisfiedBy_of_falsified (List.mem_of_getElem? clause) falsified hb] at hm
      cases hm
  | satisfied => cases hd
  | found _ _ _ _ _ model => exact absurd (model.symm.trans hd) (by simp)
  | @backtracked _ _ _ _ v _ _ chain _ _ free _ refuted _ ih₁ ih₂ =>
      intro ham
      have hb := chain.le_of_model hm ham
      rcases Assignment.above_branch (free_of_firstFree? free).2 hb with ht | hf
      · exact ih₁ refuted (Formula.satisfiedBy_mono (Assignment.le_extend m v true) hm) ht
      · exact ih₂ hd hm hf

/-- What a search returns is a model, and it keeps the bindings the search started from. -/
theorem model_spec (h : Explored f order depth a d) (hd : d.model = some b) :
    a ≤ b ∧ f.satisfiedBy b = true := by
  induction h generalizing b with
  | failed => cases hd
  | satisfied chain _ holds =>
      obtain rfl := Option.some.inj hd
      exact ⟨chain.le, holds⟩
  | found chain _ _ _ _ _ ih =>
      obtain ⟨hle, hs⟩ := ih hd
      exact ⟨le_trans chain.le (le_trans (Assignment.le_extend _ _ _) hle), hs⟩
  | backtracked chain _ _ _ _ _ _ _ ih₂ =>
      obtain ⟨hle, hs⟩ := ih₂ hd
      exact ⟨le_trans chain.le (le_trans (Assignment.le_extend _ _ _) hle), hs⟩

/-- What a search returns has the greatest values among the models above its start. -/
theorem valuesOn_le (h : Explored f order depth a d) (hd : d.model = some b)
    (hm : f.satisfiedBy m = true) (ham : a ≤ m) : m.valuesOn order ≤ b.valuesOn order := by
  induction h generalizing b m with
  | failed => cases hd
  | satisfied chain _ _ =>
      obtain rfl := Option.some.inj hd
      exact Assignment.valuesOn_anti (chain.le_of_model hm ham)
  | @found _ _ e _ _ v first chain _ _ free left _ ih =>
      have hfree := (free_of_firstFree? free).2
      have hem := chain.le_of_model hm ham
      rcases Assignment.above_branch hfree hem with ht | hf
      · rw [← Assignment.valuesOn_extend_true m v order]
        exact ih hd (Formula.satisfiedBy_mono (Assignment.le_extend m v true) hm) ht
      · -- the search has kept the value true, the model has the value false
        have heb := (Assignment.extend_le_iff hfree).1 (left.model_spec hd).1
        have hmv := ((Assignment.extend_le_iff hfree).1 hf).2
        exact Assignment.valuesOn_le_of_firstFree? free hem hmv heb.1 heb.2
  | @backtracked _ _ _ _ v _ _ chain _ _ free left refuted _ _ ih₂ =>
      have hem := chain.le_of_model hm ham
      rcases Assignment.above_branch (free_of_firstFree? free).2 hem with ht | hf
      · exact absurd ht (left.not_le_of_model refuted
          (Formula.satisfiedBy_mono (Assignment.le_extend m v true) hm))
      · exact ih₂ hd hm hf

/-- A search binds variables of its formula only. -/
theorem mem_names_of_binds (h : Explored f f.names depth a d) (hd : d.model = some b) {n : String}
    (hb : b.binds n = true) : a.binds n = true ∨ n ∈ f.names := by
  induction h generalizing b with
  | failed => cases hd
  | satisfied chain _ _ =>
      obtain rfl := Option.some.inj hd
      exact chain.mem_names_of_binds hb
  | found chain _ _ free _ _ ih =>
      rcases ih hd hb with hn | hn
      · exact chain.mem_names_of_branch free hn
      · exact Or.inr hn
  | backtracked chain _ _ free _ _ _ _ ih₂ =>
      rcases ih₂ hd hb with hn | hn
      · exact chain.mem_names_of_branch free hn
      · exact Or.inr hn

end Explored

/-! ## The answer of a search -/

theorem lookup_map_pair (g : String → Bool) (ns : List String) (n : String) :
    (ns.map fun v => (v, g v)).lookup n = if n ∈ ns then some (g n) else none := by
  induction ns with
  | nil => rfl
  | cons v vs ih =>
      rw [List.map_cons, List.lookup_cons, ih]
      by_cases h : n = v
      · subst h
        simp
      · have hbeq : (n == v) = false := by simpa using h
        simp [hbeq, h]

namespace Formula

variable {f : Formula} {a : Assignment}

theorem value?_completion (f : Formula) (a : Assignment) (n : String) :
    (f.completion a).value? n = if n ∈ f.names then some ((a.value? n).getD true) else none := by
  rw [Assignment.value?_eq_lookup]
  exact lookup_map_pair (fun v => (a.value? v).getD true) f.names n

theorem names_completion (f : Formula) (a : Assignment) : (f.completion a).names = f.names := by
  simp [completion, Assignment.names, Assignment.ofBindings, Function.comp_def]

theorem le_completion (h : ∀ n, a.binds n = true → n ∈ f.names) : a ≤ f.completion a := by
  intro n v hv
  rw [value?_completion, if_pos (h n (Assignment.binds_of_value? hv)), hv, Option.getD_some]

theorem valuesOn_completion (f : Formula) (a : Assignment) :
    (f.completion a).valuesOn f.names = a.valuesOn f.names := by
  apply List.map_congr_left
  intro n hn
  rw [value?_completion, if_pos hn, Option.getD_some]

/-- An assignment to exactly the variables of a formula satisfies it, takes the value true wherever
a satisfying snapshot below it binds nothing, and no model has greater values than it. -/
structure GreatestModel (f : Formula) (assignment snapshot : Assignment) : Prop where
  snapshot_satisfies : f.satisfiedBy snapshot = true
  names_eq : assignment.names = f.names
  snapshot_le : snapshot ≤ assignment
  true_of_free : ∀ v ∈ f.names, snapshot.binds v = false → assignment.value? v = some true
  satisfies : f.satisfiedBy assignment = true
  greatest : ∀ m, f.satisfiedBy m = true → m.valuesOn f.names ≤ assignment.valuesOn f.names

theorem greatestModel_of_explored {b : Assignment} {d : Finding}
    (h : Explored f f.names 0 ∅ d) (hd : d.model = some b) :
    f.GreatestModel (f.completion b) b := by
  obtain ⟨-, hs⟩ := h.model_spec hd
  have hnames : ∀ n, b.binds n = true → n ∈ f.names := by
    intro n hn
    rcases h.mem_names_of_binds hd hn with h' | h'
    · simp [Assignment.binds] at h'
    · exact h'
  exact
    { snapshot_satisfies := hs
      names_eq := names_completion f b
      snapshot_le := le_completion hnames
      true_of_free := by
        intro v hv hfree
        rw [value?_completion, if_pos hv, Assignment.binds_eq_false_iff.1 hfree, Option.getD_none]
      satisfies := satisfiedBy_mono (le_completion hnames) hs
      greatest := by
        intro m hm
        rw [valuesOn_completion]
        exact h.valuesOn_le hd hm (Assignment.empty_le m) }

/-- A formula is found unsatisfiable only if it has no model, and otherwise the search returns its
greatest one. -/
theorem solve_greatestModel (f : Formula) :
    match f.solve.verdict with
    | .unsatisfiable => ∀ m : Assignment, f.satisfiedBy m = false
    | .satisfiable assignment snapshot => f.GreatestModel assignment snapshot := by
  have hx := explored_solve f
  simp only [solve]
  cases hd : (search f f.names 0 ∅).model with
  | none =>
      intro m
      by_contra hm
      exact hx.not_le_of_model hd (by simpa using hm) (Assignment.empty_le m)
  | some b => exact greatestModel_of_explored hx hd

end Formula

end DecisionTrace
