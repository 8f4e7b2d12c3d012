import DecisionTrace.Proofs.Models

/-!
# What unit propagation comes to

Propagation binds the literals of unit clauses one after the other. `Formula.Derives` is that chain
on its own, without the order in which clauses are looked at. `propagate_spec` says that every
propagation is such a chain, and that it ends in one of two ways: at an assignment that settles the
formula, or at a clause whose literals the chain has all made false. The events and the counters
are those of the chain.

Later statements about propagation follow from the chain alone. It grows the assignment, it binds
variables of the formula only, and no model above its start escapes its end.
-/

namespace DecisionTrace

/-! ## Chains of forced bindings -/

/-- Binding the literals of a list one after the other leads from the first assignment to the
second. When its turn comes, each is the one undecided occurrence of some clause. -/
inductive Formula.Derives (f : Formula) : Assignment → List Literal → Assignment → Prop
  | refl (a : Assignment) : Derives f a [] a
  | step {a b : Assignment} {c : Clause} {l : Literal} {ls : List Literal} (mem : c ∈ f.clauses)
      (unit : c.status a = .unit l) (rest : Derives f (a.extend l.name l.satisfyingValue) ls b) :
      Derives f a (l :: ls) b

namespace Formula.Derives

variable {f : Formula} {a b d m : Assignment} {ls ks : List Literal}

theorem single {c : Clause} {l : Literal} (mem : c ∈ f.clauses) (unit : c.status a = .unit l) :
    f.Derives a [l] (a.extend l.name l.satisfyingValue) :=
  .step mem unit (.refl _)

theorem trans (h : f.Derives a ls b) (k : f.Derives b ks d) : f.Derives a (ls ++ ks) d := by
  induction h with
  | refl a => exact k
  | step mem unit _ ih => exact .step mem unit (ih k)

/-- A chain only adds bindings. -/
theorem le (h : f.Derives a ls b) : a ≤ b := by
  induction h with
  | refl a => exact le_refl a
  | step _ _ _ ih => exact le_trans (Assignment.le_extend _ _ _) ih

/-- A model above the start of a chain lies above its end. -/
theorem le_of_model (h : f.Derives a ls b) (hm : f.satisfiedBy m = true) (ha : a ≤ m) : b ≤ m := by
  induction h with
  | refl a => exact ha
  | step mem unit _ ih =>
      apply ih
      rw [Assignment.extend_le_iff (Clause.mem_of_status_unit unit).2]
      exact ⟨ha, Clause.value?_of_unit unit ha (Formula.satisfiedBy_iff.1 hm _ mem)⟩

/-- What a chain binds was bound before or is a variable of the formula. -/
theorem mem_names_of_binds (h : f.Derives a ls b) {n : String} (hb : b.binds n = true) :
    a.binds n = true ∨ n ∈ f.names := by
  induction h with
  | refl a => exact Or.inl hb
  | step mem unit _ ih =>
      rcases ih hb with h | h
      · rw [Assignment.binds_extend, Bool.or_eq_true, decide_eq_true_eq] at h
        rcases h with h | h
        · exact Or.inl h
        · exact Or.inr (Formula.mem_names.2
            ⟨_, mem, _, (Clause.mem_of_status_unit unit).1, h.symm⟩)
      · exact Or.inr h

/-- The literals of a chain are on variables of the formula. -/
theorem mem_names_of_mem (h : f.Derives a ls b) {l : Literal} (hl : l ∈ ls) :
    l.name ∈ f.names := by
  induction h with
  | refl a => cases hl
  | @step a b c l' ls mem unit _ ih =>
      rcases List.mem_cons.1 hl with rfl | hl
      · exact Formula.mem_names.2 ⟨c, mem, l, (Clause.mem_of_status_unit unit).1, rfl⟩
      · exact ih hl

end Formula.Derives

/-! ## The two ends of a propagation -/

/-- The event of a forced literal. -/
def Literal.propagation (depth : Nat) (l : Literal) : Event :=
  ⟨.propagate l.name l.satisfyingValue, depth⟩

namespace Propagation

/-- The propagation that binds the literals of a list and ends at an assignment. -/
def settled (depth : Nat) (ls : List Literal) (b : Assignment) : Propagation where
  events := ls.map (Literal.propagation depth)
  stats := { propagations := ls.length }
  result := some b

/-- The propagation that binds the literals of a list and ends at a failed clause. -/
def failed (depth : Nat) (ls : List Literal) (index : Nat) : Propagation where
  events := ls.map (Literal.propagation depth) ++ [⟨.conflict index, depth⟩]
  stats := { propagations := ls.length, conflicts := 1 }
  result := none

theorem failed_nil (depth index : Nat) : failed depth [] index = conflict depth index :=
  rfl

theorem settled_followedBy_settled (depth : Nat) (ls ks : List Literal) (b d : Assignment) :
    (settled depth ls b).followedBy (settled depth ks d) = settled depth (ls ++ ks) d := by
  simp [followedBy, settled, Stats.merge]

theorem settled_followedBy_failed (depth : Nat) (ls ks : List Literal) (b : Assignment)
    (index : Nat) :
    (settled depth ls b).followedBy (failed depth ks index) = failed depth (ls ++ ks) index := by
  simp [followedBy, settled, failed, Stats.merge]

end Propagation

/-- A propagation from `a` settles the formula at `b`. -/
def Formula.SettlesFrom (f : Formula) (depth : Nat) (a : Assignment) (p : Propagation) : Prop :=
  ∃ ls b, f.Derives a ls b ∧ f.Settled b ∧ p = .settled depth ls b

/-- A propagation from `a` ends at a clause that its bindings have falsified. -/
def Formula.FailsFrom (f : Formula) (depth : Nat) (a : Assignment) (p : Propagation) : Prop :=
  ∃ ls b i c, f.Derives a ls b ∧ f.clauses[i]? = some c ∧ c.status b = .falsified ∧
    p = .failed depth ls i

theorem Formula.FailsFrom.after {f : Formula} {depth : Nat} {a b : Assignment} {ls : List Literal}
    {p : Propagation} (hp : f.FailsFrom depth b p) (h : f.Derives a ls b) :
    f.FailsFrom depth a ((Propagation.settled depth ls b).followedBy p) := by
  obtain ⟨ks, d, i, c, hd, hc, hs, rfl⟩ := hp
  exact ⟨ls ++ ks, d, i, c, h.trans hd, hc, hs,
    Propagation.settled_followedBy_failed depth ls ks b i⟩

/-- A sweep over the clauses from an index on binds a chain of literals and passes on, or fails at
one of these clauses. If it binds nothing, then every clause it met decides nothing. -/
theorem sweep_spec {f : Formula} {index : Nat} {cs : List Clause} (depth : Nat) (a : Assignment)
    (hcs : f.clauses.drop index = cs) :
    (∃ ls b, f.Derives a ls b ∧ sweep depth index cs a = .settled depth ls b ∧
      (ls = [] → ∀ c ∈ cs, c.Idle a)) ∨
    f.FailsFrom depth a (sweep depth index cs a) := by
  induction cs generalizing index a with
  | nil => exact Or.inl ⟨[], a, .refl a, rfl, by simp⟩
  | cons c cs ih =>
      have hat : f.clauses[index]? = some c := by
        rw [← List.head?_drop, hcs, List.head?_cons]
      have hmem : c ∈ f.clauses := List.mem_of_getElem? hat
      have hrest : f.clauses.drop (index + 1) = cs := by
        rw [← List.drop_drop, hcs, List.drop_one, List.tail_cons]
      -- a clause that decides nothing hands over to the rest of the sweep
      have hskip : c.Idle a → sweep depth index (c :: cs) a = sweep depth (index + 1) cs a →
          (∃ ls b, f.Derives a ls b ∧ sweep depth index (c :: cs) a = .settled depth ls b ∧
            (ls = [] → ∀ k ∈ c :: cs, k.Idle a)) ∨
          f.FailsFrom depth a (sweep depth index (c :: cs) a) := by
        intro hidle heq
        rw [heq]
        rcases ih a hrest with ⟨ls, b, hd, hs, hi⟩ | hf
        · exact Or.inl ⟨ls, b, hd, hs, fun h => List.forall_mem_cons.2 ⟨hidle, hi h⟩⟩
        · exact Or.inr hf
      cases hst : c.status a with
      | satisfied =>
          exact hskip (Clause.idle_iff_status.2 (Or.inl hst)) (by rw [sweep, hst])
      | unresolved =>
          exact hskip (Clause.idle_iff_status.2 (Or.inr hst)) (by rw [sweep, hst])
      | falsified =>
          refine Or.inr ⟨[], a, index, c, .refl a, hat, hst, ?_⟩
          rw [sweep, hst, Propagation.failed_nil]
      | unit l =>
          have hsweep : sweep depth index (c :: cs) a =
              (Propagation.settled depth [l] (a.extend l.name l.satisfyingValue)).followedBy
                (sweep depth (index + 1) cs (a.extend l.name l.satisfyingValue)) := by
            rw [sweep, hst]
            rfl
          rw [hsweep]
          rcases ih (a.extend l.name l.satisfyingValue) hrest with ⟨ls, b, hd, hs, -⟩ | hf
          · refine Or.inl ⟨l :: ls, b, .step hmem hst hd, ?_, by simp⟩
            rw [hs, Propagation.settled_followedBy_settled, List.singleton_append]
          · exact Or.inr (hf.after (.single hmem hst))

/-- Every propagation is a chain of forced bindings, which settles the formula or fails. -/
theorem propagate_spec (f : Formula) (depth : Nat) (a : Assignment) :
    f.SettlesFrom depth a (propagate f depth a) ∨ f.FailsFrom depth a (propagate f depth a) := by
  fun_induction propagate f depth a with
  | case1 a hnone =>
      rcases sweep_spec depth a (f := f) List.drop_zero with ⟨ls, b, -, hs, -⟩ | hf
      · rw [hs] at hnone
        cases hnone
      · exact Or.inr hf
  | case2 a b hsome hquiet =>
      rcases sweep_spec depth a (f := f) List.drop_zero with
        ⟨ls, d, hd, hs, hidle⟩ | ⟨_, _, _, _, -, -, -, hs⟩
      · have hnil : ls = [] := by
          rw [hs] at hquiet
          exact List.map_eq_nil_iff.1 hquiet
        subst hnil
        cases hd
        exact Or.inl ⟨[], a, .refl a, hidle rfl, hs⟩
      · rw [hs] at hsome
        cases hsome
  | case3 a b hsome _ ih =>
      rcases sweep_spec depth a (f := f) List.drop_zero with
        ⟨ls, d, hd, hs, -⟩ | ⟨_, _, _, _, -, -, -, hs⟩
      · have hdb : d = b := by
          rw [hs] at hsome
          exact Option.some.inj hsome
        subst hdb
        rw [hs]
        rcases ih with ⟨ks, e, he, hset, hp⟩ | hf
        · refine Or.inl ⟨ls ++ ks, e, hd.trans he, hset, ?_⟩
          rw [hp, Propagation.settled_followedBy_settled]
        · exact Or.inr (hf.after hd)
      · rw [hs] at hsome
        cases hsome

/-- A propagation with a result has settled the formula there. -/
theorem settled_of_result {f : Formula} {depth : Nat} {a b : Assignment}
    (h : (propagate f depth a).result = some b) :
    ∃ ls, f.Derives a ls b ∧ f.Settled b ∧ propagate f depth a = .settled depth ls b := by
  rcases propagate_spec f depth a with ⟨ls, d, hd, hset, hp⟩ | ⟨_, _, _, _, -, -, -, hp⟩
  · have hdb : d = b := by
      rw [hp] at h
      exact Option.some.inj h
    subst hdb
    exact ⟨ls, hd, hset, hp⟩
  · rw [hp] at h
    cases h

end DecisionTrace
