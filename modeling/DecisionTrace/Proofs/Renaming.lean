import DecisionTrace.Search
import DecisionTrace.Proofs.Models
import Mathlib.Data.List.Nodup
import Mathlib.Logic.Embedding.Basic

/-!
# Renamed variables

A search looks at names only to ask whether two of them are equal. So it does the same for a formula
whose variables have been renamed, as long as different names stay different: the same steps in the
same order with the same counts, each under the new names (`Formula.solve_rename`).

A renaming acts on everything that holds names, and each function of the search commutes with it.
The equations follow the calls from the lookup of a name up to the whole search; each rests on those
of the functions it calls and on no other property of them.
-/

namespace DecisionTrace

variable (r : String ↪ String)

/-! ## Assignments -/

namespace Assignment

/-- The assignment with renamed bindings, in the same order. -/
def rename (a : Assignment) : Assignment :=
  .ofBindings (a.bindings.map fun b => (r b.1, b.2)) (by
    have h : (a.bindings.map fun b => (r b.1, b.2)).map Prod.fst = a.names.map r := by
      simp [names, Function.comp_def]
    rw [h]
    exact List.Nodup.map r.injective a.nodup_names)

@[simp]
theorem bindings_rename (a : Assignment) :
    (a.rename r).bindings = a.bindings.map fun b => (r b.1, b.2) :=
  rfl

theorem lookup_map_rename (bs : List (String × Bool)) (n : String) :
    (bs.map fun b => (r b.1, b.2)).lookup (r n) = bs.lookup n := by
  induction bs with
  | nil => rfl
  | cons b bs ih =>
      rw [List.map_cons, List.lookup_cons, List.lookup_cons, ih]
      have hbeq : (r n == r b.1) = (n == b.1) := by
        rw [Bool.eq_iff_iff, beq_iff_eq, beq_iff_eq, r.apply_eq_iff_eq]
      rw [hbeq]

@[simp]
theorem value?_rename (a : Assignment) (n : String) : (a.rename r).value? (r n) = a.value? n := by
  rw [value?_eq_lookup, value?_eq_lookup]
  exact lookup_map_rename r a.bindings n

@[simp]
theorem binds_rename (a : Assignment) (n : String) : (a.rename r).binds (r n) = a.binds n := by
  rw [binds, value?_rename, binds]

@[simp]
theorem rename_empty : (∅ : Assignment).rename r = ∅ :=
  eq_of_bindings rfl

theorem rename_extend (a : Assignment) (n : String) (v : Bool) :
    (a.extend n v).rename r = (a.rename r).extend (r n) v := by
  apply eq_of_bindings
  by_cases h : a.binds n = true
  · simp [extend, h]
  · simp [extend, h]

end Assignment

/-! ## Literals, clauses and formulas -/

namespace Literal

/-- The literal of the renamed variable. -/
def rename (l : Literal) : Literal :=
  ⟨r l.name, l.negated⟩

@[simp]
theorem name_rename (l : Literal) : (l.rename r).name = r l.name :=
  rfl

@[simp]
theorem satisfyingValue_rename (l : Literal) :
    (l.rename r).satisfyingValue = l.satisfyingValue :=
  rfl

@[simp]
theorem evaluate_rename (l : Literal) (a : Assignment) :
    (l.rename r).evaluate (a.rename r) = l.evaluate a := by
  simp [evaluate]

end Literal

namespace Clause

/-- The clause over the renamed variables. -/
def rename (c : Clause) : Clause where
  literals := c.literals.map (Literal.rename r)
  nonempty := by simp [c.nonempty]

@[simp]
theorem satisfiedBy_rename (c : Clause) (a : Assignment) :
    (c.rename r).satisfiedBy (a.rename r) = c.satisfiedBy a := by
  simp [satisfiedBy, rename, List.any_map, Function.comp_def]

theorem unassigned_rename (c : Clause) (a : Assignment) :
    (c.rename r).unassigned (a.rename r) = (c.unassigned a).map (Literal.rename r) := by
  simp [unassigned, rename, List.filter_map, Function.comp_def]

/-- The status with the renamed literal, if it names one. -/
def Status.rename : Status → Status
  | .unit l => .unit (l.rename r)
  | other => other

theorem status_rename (c : Clause) (a : Assignment) :
    (c.rename r).status (a.rename r) = (c.status a).rename r := by
  rw [status, status, satisfiedBy_rename, unassigned_rename]
  split
  · rfl
  · cases c.unassigned a with
    | nil => rfl
    | cons l ls =>
        cases ls with
        | nil => rfl
        | cons k ls => rfl

end Clause

theorem firstSeen_map {α β : Type} [DecidableEq α] [DecidableEq β] (e : α ↪ β) (xs : List α) :
    firstSeen (xs.map e) = (firstSeen xs).map e := by
  induction xs with
  | nil => rfl
  | cons x xs ih =>
      rw [List.map_cons, firstSeen, firstSeen, ih, List.map_cons, List.filter_map]
      simp [Function.comp_def]

namespace Formula

/-- The formula over the renamed variables. -/
def rename (f : Formula) : Formula :=
  ⟨f.clauses.map (Clause.rename r)⟩

theorem clauses_rename (f : Formula) : (f.rename r).clauses = f.clauses.map (Clause.rename r) :=
  rfl

@[simp]
theorem satisfiedBy_rename (f : Formula) (a : Assignment) :
    (f.rename r).satisfiedBy (a.rename r) = f.satisfiedBy a := by
  simp [satisfiedBy, rename, List.all_map, Function.comp_def]

/-- The variables keep their order. -/
theorem names_rename (f : Formula) : (f.rename r).names = f.names.map r := by
  rw [names, names, ← firstSeen_map]
  congr 1
  simp [literals, rename, List.flatMap_map, List.map_flatMap, Clause.rename, Function.comp_def]

theorem completion_rename (f : Formula) (a : Assignment) :
    (f.rename r).completion (a.rename r) = (f.completion a).rename r := by
  apply Assignment.eq_of_bindings
  simp [completion, Assignment.ofBindings, names_rename]

end Formula

/-! ## Propagation -/

/-- The action on the renamed variable, if it is about one. -/
def Action.rename : Action → Action
  | .propagate name value => .propagate (r name) value
  | .conflict clause => .conflict clause
  | .allSatisfied => .allSatisfied
  | .branch kind name value => .branch kind (r name) value

/-- The event with a renamed action at the same depth. -/
def Event.rename (e : Event) : Event :=
  ⟨e.action.rename r, e.depth⟩

namespace Propagation

/-- The propagation over the renamed variables, with the same counts. -/
def rename (p : Propagation) : Propagation where
  events := p.events.map (Event.rename r)
  stats := p.stats
  result := p.result.map (Assignment.rename r)

theorem result_rename (p : Propagation) :
    (p.rename r).result = p.result.map (Assignment.rename r) :=
  rfl

theorem rename_followedBy (p q : Propagation) :
    (p.followedBy q).rename r = (p.rename r).followedBy (q.rename r) := by
  simp [rename, followedBy]

theorem rename_step (depth : Nat) (l : Literal) (a : Assignment) :
    (step depth l a).rename r = step depth (l.rename r) (a.rename r) := by
  simp [rename, step, Event.rename, Action.rename, Assignment.rename_extend]

end Propagation

theorem sweep_rename (depth index : Nat) (cs : List Clause) (a : Assignment) :
    sweep depth index (cs.map (Clause.rename r)) (a.rename r) =
      (sweep depth index cs a).rename r := by
  induction cs generalizing index a with
  | nil => rfl
  | cons c cs ih =>
      rw [List.map_cons, sweep, sweep, Clause.status_rename]
      cases c.status a with
      | satisfied => exact ih (index + 1) a
      | unresolved => exact ih (index + 1) a
      | falsified => rfl
      | unit l =>
          have hrest := ih (index + 1) (a.extend l.name l.satisfyingValue)
          rw [Assignment.rename_extend] at hrest
          simp only [Clause.Status.rename, Literal.name_rename, Literal.satisfyingValue_rename,
            Propagation.rename_followedBy, Propagation.rename_step, hrest]

/-- Propagation by the outcome of its first sweep: a sweep that fails or binds nothing ends it. -/
theorem propagate_eq (f : Formula) (depth : Nat) (a : Assignment) :
    propagate f depth a =
      match (sweep depth 0 f.clauses a).result with
      | none => sweep depth 0 f.clauses a
      | some b =>
        if (sweep depth 0 f.clauses a).events = [] then sweep depth 0 f.clauses a
        else (sweep depth 0 f.clauses a).followedBy (propagate f depth b) := by
  rw [propagate]
  split
  · next h => rw [h]
  · next b h =>
    rw [h]
    split
    · rfl
    · rfl

theorem propagate_rename (f : Formula) (depth : Nat) (a : Assignment) :
    propagate (f.rename r) depth (a.rename r) = (propagate f depth a).rename r := by
  fun_induction propagate f depth a with
  | case1 a hnone =>
      rw [propagate_eq, Formula.clauses_rename, sweep_rename]
      simp [Propagation.rename, hnone]
  | case2 a b hsome hquiet =>
      rw [propagate_eq, Formula.clauses_rename, sweep_rename]
      simp [Propagation.rename, hsome, hquiet]
  | case3 a b hsome hbusy ih =>
      rw [propagate_eq, Formula.clauses_rename, sweep_rename, Propagation.rename_followedBy, ← ih]
      simp [Propagation.rename, hsome, hbusy]

/-! ## The search -/

theorem firstFree?_rename (order : List String) (a : Assignment) :
    firstFree? (order.map r) (a.rename r) = (firstFree? order a).map r := by
  simp only [firstFree?, List.find?_map, Function.comp_def, Assignment.binds_rename]

namespace Finding

/-- The finding over the renamed variables, with the same counts. -/
def rename (d : Finding) : Finding where
  events := d.events.map (Event.rename r)
  stats := d.stats
  model := d.model.map (Assignment.rename r)

theorem rename_leaf (depth : Nat) (p : Propagation) (last : List Event)
    (model : Option Assignment) :
    (leaf depth p last model).rename r =
      leaf depth (p.rename r) (last.map (Event.rename r)) (model.map (Assignment.rename r)) := by
  simp [rename, leaf, Propagation.rename]

theorem rename_found (depth : Nat) (p : Propagation) (v : String) (first : Finding) :
    (found depth p v first).rename r = found depth (p.rename r) (r v) (first.rename r) := by
  simp [rename, found, Propagation.rename, Event.rename, Action.rename]

theorem rename_backtracked (depth : Nat) (p : Propagation) (v : String) (first second : Finding) :
    (backtracked depth p v first second).rename r =
      backtracked depth (p.rename r) (r v) (first.rename r) (second.rename r) := by
  simp [rename, backtracked, Propagation.rename, Event.rename, Action.rename]

end Finding

/-- The search by the outcome of the propagation in its first frame. -/
theorem search_eq (f : Formula) (order : List String) (depth : Nat) (a : Assignment) :
    search f order depth a =
      match (propagate f depth a).result with
      | none => .leaf depth (propagate f depth a) [] none
      | some b =>
        if f.satisfiedBy b then
          .leaf depth (propagate f depth a) [⟨.allSatisfied, depth⟩] (some b)
        else
          match firstFree? order b with
          | none => .leaf depth (propagate f depth a) [] none
          | some v =>
            match (search f order (depth + 1) (b.extend v true)).model with
            | some _ =>
              .found depth (propagate f depth a) v (search f order (depth + 1) (b.extend v true))
            | none =>
              .backtracked depth (propagate f depth a) v
                (search f order (depth + 1) (b.extend v true))
                (search f order (depth + 1) (b.extend v false)) := by
  rw [search]
  split
  · next h => rw [h]
  · next b h =>
    simp only [h]
    split
    · rfl
    · split
      · next hv => simp only [hv]
      · next v hv => exact hv ▸ rfl

theorem search_rename (f : Formula) (order : List String) (depth : Nat) (a : Assignment) :
    search (f.rename r) (order.map r) depth (a.rename r) = (search f order depth a).rename r := by
  -- three ways for a frame to end at once, then a first branch that succeeds and one that fails
  fun_induction search f order depth a with
  | case1 depth a hnone =>
      rw [search_eq, propagate_rename, Propagation.result_rename, hnone, Finding.rename_leaf]
      rfl
  | case2 depth a b hsome hs =>
      rw [search_eq, propagate_rename, Propagation.result_rename, hsome, Finding.rename_leaf]
      simp only [Option.map_some, Formula.satisfiedBy_rename, hs, if_true]
      rfl
  | case3 depth a b hsome hs hnone =>
      rw [search_eq, propagate_rename, Propagation.result_rename, hsome, Finding.rename_leaf]
      simp only [Option.map_some, Formula.satisfiedBy_rename, hs, firstFree?_rename, hnone]
      rfl
  | case4 depth a b hsome hs v hv first m hm ih =>
      rw [Assignment.rename_extend] at ih
      rw [search_eq, propagate_rename, Propagation.result_rename, hsome, Finding.rename_found]
      simp only [Option.map_some, Formula.satisfiedBy_rename, hs, firstFree?_rename, hv, ih]
      simp [Finding.rename, hm, first]
  | case5 depth a b hsome hs v hv first hm ih₁ ih₂ =>
      rw [Assignment.rename_extend] at ih₁ ih₂
      rw [search_eq, propagate_rename, Propagation.result_rename, hsome, Finding.rename_backtracked]
      simp only [Option.map_some, Formula.satisfiedBy_rename, hs, firstFree?_rename, hv, ih₁, ih₂]
      simp [Finding.rename, hm, first]

/-! ## Answers -/

/-- The answer over the renamed variables. -/
def Verdict.rename : Verdict → Verdict
  | .satisfiable assignment snapshot => .satisfiable (assignment.rename r) (snapshot.rename r)
  | .unsatisfiable => .unsatisfiable

/-- The outcome over the renamed variables: the same counts, and the same steps under new names. -/
def Outcome.rename (o : Outcome) : Outcome where
  verdict := o.verdict.rename r
  trace := o.trace.map (Event.rename r)
  stats := o.stats

/-- A formula with renamed variables is solved as before, under the new names. -/
theorem Formula.solve_rename (f : Formula) (r : String ↪ String) :
    (f.rename r).solve = f.solve.rename r := by
  have hsearch := search_rename r f f.names 0 ∅
  rw [Assignment.rename_empty, ← names_rename] at hsearch
  simp only [solve, hsearch, Outcome.rename, Finding.rename]
  cases (search f f.names 0 ∅).model with
  | none => rfl
  | some b => simp [Verdict.rename, completion_rename]

end DecisionTrace
