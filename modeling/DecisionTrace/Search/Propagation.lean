import DecisionTrace.Event
import DecisionTrace.Formula
import DecisionTrace.Search.Stats

/-!
# Unit propagation

A clause with no true literal and one undecided occurrence leaves no choice: its literal must hold.
A sweep goes over the clauses once, in order, and binds such literals as it meets them, so a later
clause already sees the bindings of an earlier one. A clause with only false literals ends the
sweep. Propagation sweeps until a sweep binds nothing.

It comes to an end because every productive sweep binds a variable of the formula that was free
(`unbound_lt_of_sweep`), and the number of such variables is finite.
-/

namespace DecisionTrace

namespace Assignment

@[simp]
theorem value?_extend (a : Assignment) (n : String) (v : Bool) (m : String) :
    (a.extend n v).value? m = (a.value? m).or (if m = n then some v else none) := by
  by_cases h : a.binds n = true
  · by_cases hm : m = n
    · subst hm
      obtain ⟨w, hw⟩ := Option.isSome_iff_exists.1 h
      simp [extend, h, hw]
    · simp [extend, h, hm]
  · simp [value?_eq_lookup, extend, h, lookup_append_singleton]

@[simp]
theorem binds_extend (a : Assignment) (n : String) (v : Bool) (m : String) :
    (a.extend n v).binds m = (a.binds m || decide (m = n)) := by
  simp only [binds, value?_extend]
  cases a.value? m <;> by_cases h : m = n <;> simp [h]

end Assignment

/-- The number of names of a list that an assignment leaves free. -/
def unbound (order : List String) (a : Assignment) : Nat :=
  (order.filter fun v => !a.binds v).length

theorem unbound_le {order : List String} {a b : Assignment}
    (h : ∀ v, a.binds v = true → b.binds v = true) : unbound order b ≤ unbound order a := by
  induction order with
  | nil => simp [unbound]
  | cons v vs ih =>
    simp only [unbound, List.filter_cons] at ih ⊢
    by_cases ha : a.binds v = true
    · simp [ha, h v ha]; exact ih
    · by_cases hb : b.binds v = true
      · simp [ha, hb]; omega
      · simp [ha, hb]; exact ih

theorem unbound_lt {order : List String} {a b : Assignment}
    (h : ∀ v, a.binds v = true → b.binds v = true) {n : String} (hn : n ∈ order)
    (ha : a.binds n = false) (hb : b.binds n = true) : unbound order b < unbound order a := by
  induction order with
  | nil => simp at hn
  | cons v vs ih =>
    have hle : unbound vs b ≤ unbound vs a := unbound_le h
    rcases List.mem_cons.1 hn with rfl | hm
    · simp only [unbound, List.filter_cons, ha, hb] at hle ⊢
      simp only [Bool.not_false, Bool.not_true, ite_true, Bool.false_eq_true, ite_false,
        List.length_cons]
      omega
    · have hlt := ih hm
      simp only [unbound, List.filter_cons] at hlt ⊢
      by_cases hav : a.binds v = true
      · simp [hav, h v hav]; exact hlt
      · by_cases hbv : b.binds v = true
        · simp [hav, hbv]; omega
        · simp [hav, hbv]; exact hlt

/-- What came of propagating: what happened, how often, and the extended assignment, or none when
a clause has only false literals. -/
structure Propagation where
  events : List Event := []
  stats : Stats := {}
  result : Option Assignment
deriving DecidableEq

namespace Propagation

/-- One part of a propagation in front of the rest. -/
def followedBy (first rest : Propagation) : Propagation where
  events := first.events ++ rest.events
  stats := first.stats.merge rest.stats
  result := rest.result

/-- The step that binds the literal of a unit clause. -/
def step (depth : Nat) (l : Literal) (a : Assignment) : Propagation where
  events := [⟨.propagate l.name l.satisfyingValue, depth⟩]
  stats := { propagations := 1 }
  result := some (a.extend l.name l.satisfyingValue)

/-- The end at a clause with only false literals. -/
def conflict (depth index : Nat) : Propagation where
  events := [⟨.conflict index, depth⟩]
  stats := { conflicts := 1 }
  result := none

end Propagation

/-- One pass over clauses whose first has index `index`. -/
def sweep (depth : Nat) : (index : Nat) → List Clause → Assignment → Propagation
  | _, [], a => { result := some a }
  | index, c :: cs, a =>
    match c.status a with
    | .satisfied => sweep depth (index + 1) cs a
    | .unresolved => sweep depth (index + 1) cs a
    | .falsified => .conflict depth index
    | .unit l =>
      (Propagation.step depth l a).followedBy
        (sweep depth (index + 1) cs (a.extend l.name l.satisfyingValue))

theorem Clause.mem_of_status_unit {c : Clause} {a : Assignment} {l : Literal}
    (h : c.status a = .unit l) : l ∈ c.literals ∧ a.binds l.name = false := by
  have hl : l ∈ c.unassigned a := by
    unfold Clause.status at h
    split at h
    · cases h
    · split at h
      · cases h
      · next heq => cases h; simp [heq]
      · cases h
  simpa [Clause.unassigned] using hl

/-- A sweep forgets no binding. -/
theorem binds_of_sweep {depth index : Nat} {cs : List Clause} {a b : Assignment}
    (h : (sweep depth index cs a).result = some b) {v : String} (hv : a.binds v = true) :
    b.binds v = true := by
  induction cs generalizing index a with
  | nil => simp only [sweep, Option.some.injEq] at h; exact h ▸ hv
  | cons c cs ih =>
    simp only [sweep] at h
    split at h
    · exact ih h hv
    · exact ih h hv
    · cases h
    · exact ih h (by simp [hv])

/-- A sweep in which something happened, and which did not fail, has bound a free variable of its
clauses. -/
theorem exists_bound_of_sweep {depth index : Nat} {cs : List Clause} {a b : Assignment}
    (h : (sweep depth index cs a).result = some b) (he : (sweep depth index cs a).events ≠ []) :
    ∃ n, n ∈ (cs.flatMap Clause.literals).map Literal.name ∧
      a.binds n = false ∧ b.binds n = true := by
  induction cs generalizing index a with
  | nil => simp [sweep] at he
  | cons c cs ih =>
    simp only [sweep] at h he
    split at h
    · next hs =>
      simp only [hs] at he
      obtain ⟨n, hn, hab⟩ := ih h he
      exact ⟨n, by simp only [List.flatMap_cons, List.map_append, List.mem_append]; exact .inr hn,
        hab⟩
    · next hs =>
      simp only [hs] at he
      obtain ⟨n, hn, hab⟩ := ih h he
      exact ⟨n, by simp only [List.flatMap_cons, List.map_append, List.mem_append]; exact .inr hn,
        hab⟩
    · cases h
    · next l hs =>
      obtain ⟨hl, hfree⟩ := Clause.mem_of_status_unit hs
      refine ⟨l.name, ?_, hfree, binds_of_sweep h (by simp)⟩
      simp only [List.flatMap_cons, List.map_append, List.mem_append]
      exact .inl (List.mem_map_of_mem hl)

/-- A productive sweep leaves fewer variables free. -/
theorem unbound_lt_of_sweep {f : Formula} {depth : Nat} {a b : Assignment}
    (h : (sweep depth 0 f.clauses a).result = some b)
    (he : (sweep depth 0 f.clauses a).events ≠ []) :
    unbound f.names b < unbound f.names a := by
  obtain ⟨n, hn, ha, hb⟩ := exists_bound_of_sweep h he
  exact unbound_lt (fun v hv => binds_of_sweep h hv)
    (by simpa [Formula.names, Formula.literals] using hn) ha hb

/-- Unit propagation to the point where no clause leaves anything to bind, or to the first clause
with only false literals. -/
def propagate (f : Formula) (depth : Nat) (a : Assignment) : Propagation :=
  match _h : (sweep depth 0 f.clauses a).result with
  | none => sweep depth 0 f.clauses a
  | some b =>
    if _he : (sweep depth 0 f.clauses a).events = [] then sweep depth 0 f.clauses a
    else (sweep depth 0 f.clauses a).followedBy (propagate f depth b)
termination_by unbound f.names a
decreasing_by exact unbound_lt_of_sweep _h _he

/-- Propagation forgets no binding. -/
theorem binds_of_propagate {f : Formula} {depth : Nat} {a b : Assignment}
    (h : (propagate f depth a).result = some b) {v : String} (hv : a.binds v = true) :
    b.binds v = true := by
  fun_induction propagate f depth a with
  | case1 a hs => rw [hs] at h; cases h
  | case2 a b' hs he => exact binds_of_sweep h hv
  | case3 a b' hs he ih => exact ih h (binds_of_sweep hs hv)

end DecisionTrace
