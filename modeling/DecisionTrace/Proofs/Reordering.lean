import DecisionTrace.Proofs.SearchTree

/-!
# Reordered formulas

Two formulas with the same order of variables, each of whose clauses is a reordering of a clause of
the other, are searched alike (`solve_alike_of_reorders`). Propagation may bind its literals in
another order, a failing frame may bind more or fewer of them and may fail at another clause;
nothing else differs.

The heart is that propagation is confluent. What a chain of forced bindings binds is bound at every
settled assignment above its start (`Derives.le_of_settled`), also if that one settles the other
formula. So from assignments with the same bindings either both propagations fail, or both settle
with the same bindings, and then both frames branch on the same variable. The rest is an induction
over the two trees at once.
-/

namespace DecisionTrace

/-! ## Reordered clauses -/

namespace Clause

variable {c k : Clause} {a : Assignment}

theorem satisfiedBy_eq_of_perm (h : c.literals.Perm k.literals) (a : Assignment) :
    c.satisfiedBy a = k.satisfiedBy a :=
  h.any_eq

theorem idle_iff_of_perm (h : c.literals.Perm k.literals) : c.Idle a ↔ k.Idle a := by
  have hlen : (c.unassigned a).length = (k.unassigned a).length :=
    (h.filter fun l : Literal => !a.binds l.name).length_eq
  rw [Idle, Idle, satisfiedBy_eq_of_perm h, hlen]

end Clause

namespace Formula

variable {f g : Formula} {a b d e : Assignment} {ls ks : List Literal}

/-- Every clause of the first formula is a reordering of some clause of the second. -/
def ReordersInto (f g : Formula) : Prop :=
  ∀ c ∈ f.clauses, ∃ k ∈ g.clauses, c.literals.Perm k.literals

instance (f g : Formula) : Decidable (f.ReordersInto g) :=
  inferInstanceAs (Decidable (∀ c ∈ f.clauses, ∃ k ∈ g.clauses, c.literals.Perm k.literals))

theorem Settled.of_reorders (h : g.Settled a) (hfg : f.ReordersInto g) : f.Settled a := by
  intro c hc
  obtain ⟨k, hk, hp⟩ := hfg c hc
  exact (Clause.idle_iff_of_perm hp).2 (h k hk)

theorem satisfiedBy_of_reorders (hfg : f.ReordersInto g) (hab : a ≤ b)
    (h : g.satisfiedBy a = true) : f.satisfiedBy b = true := by
  rw [satisfiedBy_iff]
  intro c hc
  obtain ⟨k, hk, hp⟩ := hfg c hc
  rw [Clause.satisfiedBy_eq_of_perm hp]
  exact k.satisfiedBy_mono hab (satisfiedBy_iff.1 h k hk)

theorem satisfiedBy_eq_of_reorders (hfg : f.ReordersInto g) (hgf : g.ReordersInto f)
    (hab : a.Agrees b) : f.satisfiedBy a = g.satisfiedBy b := by
  rw [Bool.eq_iff_iff]
  exact ⟨satisfiedBy_of_reorders hgf hab.le, satisfiedBy_of_reorders hfg hab.symm.le⟩

/-! ## Confluence -/

/-- What a chain binds is bound at every settled assignment above its start. -/
theorem Derives.le_of_settled (h : f.Derives a ls b) (hset : f.Settled d) (had : a ≤ d) :
    b ≤ d := by
  induction h with
  | refl a => exact had
  | step mem unit _ ih =>
      apply ih
      rw [Assignment.extend_le_iff (Clause.mem_of_status_unit unit).2]
      exact ⟨had, Clause.value?_of_unit_of_idle unit had (hset _ mem)⟩

/-- From where one order of clauses falsifies a clause, no other order settles. -/
theorem Derives.not_settled_of_falsified {c : Clause} {i : Nat} (h : f.Derives a ls b)
    (hc : f.clauses[i]? = some c) (hs : c.status b = .falsified) (hfg : f.ReordersInto g)
    (k : g.Derives d ks e) (had : a.Agrees d) : ¬ g.Settled e := by
  intro hset
  have hset' : f.Settled e := hset.of_reorders hfg
  have hbe : b ≤ e := h.le_of_settled hset' (le_trans had.le k.le)
  exact Clause.not_idle_of_falsified hs hbe (hset' c (List.mem_of_getElem? hc))

/-- Two orders of clauses that both settle do so with the same bindings. -/
theorem Derives.agrees_of_settled (h : f.Derives a ls b) (hset : f.Settled b)
    (k : g.Derives d ks e) (kset : g.Settled e) (hfg : f.ReordersInto g)
    (hgf : g.ReordersInto f) (had : a.Agrees d) : b.Agrees e := by
  apply Assignment.agrees_of_le
  · exact h.le_of_settled (kset.of_reorders hfg) (le_trans had.le k.le)
  · exact k.le_of_settled (hset.of_reorders hgf) (le_trans had.symm.le h.le)

/-! A chain is determined up to order by its two ends. -/

theorem Derives.mem_iff (h : f.Derives a ls b) {l : Literal} :
    l ∈ ls ↔ a.binds l.name = false ∧ b.value? l.name = some l.satisfyingValue := by
  induction h with
  | refl a =>
      rw [Assignment.binds_eq_false_iff]
      constructor
      · intro hl
        cases hl
      · rintro ⟨hnone, hv⟩
        rw [hnone] at hv
        cases hv
  | @step a b c k ls mem unit rest ih =>
      have hfree := (Clause.mem_of_status_unit unit).2
      rw [List.mem_cons, ih, Assignment.binds_extend, Bool.or_eq_false_iff, decide_eq_false_iff_not]
      have hk : b.value? k.name = some k.satisfyingValue :=
        Assignment.value?_of_le rest.le (Assignment.value?_extend_self hfree _)
      constructor
      · rintro (rfl | ⟨⟨hl, -⟩, hv⟩)
        · exact ⟨hfree, hk⟩
        · exact ⟨hl, hv⟩
      · rintro ⟨hl, hv⟩
        by_cases hn : l.name = k.name
        · left
          rw [hn, hk, Option.some.injEq] at hv
          exact Literal.eq_of_satisfyingValue hn hv.symm
        · exact Or.inr ⟨⟨hl, hn⟩, hv⟩

theorem Derives.nodup (h : f.Derives a ls b) : ls.Nodup := by
  induction h with
  | refl a => exact List.nodup_nil
  | @step a b c k ls mem unit rest ih =>
      rw [List.nodup_cons]
      refine ⟨?_, ih⟩
      intro hk
      have hfree := (rest.mem_iff.1 hk).1
      simp at hfree

theorem Derives.perm_of_agrees (h : f.Derives a ls b) (k : g.Derives d ks e) (had : a.Agrees d)
    (hbe : b.Agrees e) : ls.Perm ks := by
  rw [List.perm_ext_iff_of_nodup h.nodup k.nodup]
  intro l
  rw [h.mem_iff, k.mem_iff, had.binds_eq, hbe l.name]

end Formula

/-! ## Alike -/

/-- The same counts, those of propagations apart. -/
structure Stats.Alike (s t : Stats) : Prop where
  decisions : s.decisions = t.decisions
  backtracks : s.backtracks = t.backtracks
  conflicts : s.conflicts = t.conflicts
  maxDepth : s.maxDepth = t.maxDepth

theorem Stats.Alike.refl (s : Stats) : s.Alike s :=
  ⟨rfl, rfl, rfl, rfl⟩

theorem Stats.Alike.merge {s s' t t' : Stats} (h : s.Alike s') (k : t.Alike t') :
    (s.merge t).Alike (s'.merge t') := by
  obtain ⟨h₁, h₂, h₃, h₄⟩ := h
  obtain ⟨k₁, k₂, k₃, k₄⟩ := k
  constructor <;> simp [Stats.merge, *]

theorem Propagation.alike_failed (depth i j : Nat) (ls ks : List Literal) :
    (failed depth ls i).stats.Alike (failed depth ks j).stats :=
  ⟨rfl, rfl, rfl, rfl⟩

theorem Propagation.alike_settled (depth : Nat) (ls ks : List Literal) (b e : Assignment) :
    (settled depth ls b).stats.Alike (settled depth ks e).stats :=
  ⟨rfl, rfl, rfl, rfl⟩

/-- Two traces that differ at most in the order of the propagations of a frame and, where a frame
fails, in which literals it has bound and which clause it names. -/
inductive SameCourse : List Event → List Event → Prop
  | nil : SameCourse [] []
  | failed {depth i j : Nat} {ls ks : List Literal} {es fs : List Event} (rest : SameCourse es fs) :
      SameCourse (ls.map (Literal.propagation depth) ++ ⟨.conflict i, depth⟩ :: es)
        (ks.map (Literal.propagation depth) ++ ⟨.conflict j, depth⟩ :: fs)
  | satisfied {depth : Nat} {ls ks : List Literal} {es fs : List Event} (same : ls.Perm ks)
      (rest : SameCourse es fs) :
      SameCourse (ls.map (Literal.propagation depth) ++ ⟨.allSatisfied, depth⟩ :: es)
        (ks.map (Literal.propagation depth) ++ ⟨.allSatisfied, depth⟩ :: fs)
  | branched {depth : Nat} {kind : BranchKind} {v : String} {value : Bool} {ls ks : List Literal}
      {es fs : List Event} (same : ls.Perm ks) (rest : SameCourse es fs) :
      SameCourse (ls.map (Literal.propagation depth) ++ ⟨.branch kind v value, depth⟩ :: es)
        (ks.map (Literal.propagation depth) ++ ⟨.branch kind v value, depth⟩ :: fs)

theorem SameCourse.append {es fs es' fs' : List Event} (h : SameCourse es fs)
    (k : SameCourse es' fs') : SameCourse (es ++ es') (fs ++ fs') := by
  induction h with
  | nil => exact k
  | failed _ ih => simpa using SameCourse.failed ih
  | satisfied same _ ih => simpa using SameCourse.satisfied same ih
  | branched same _ ih => simpa using SameCourse.branched same ih

/-- Whether an event is a branch. -/
def Event.isBranch (e : Event) : Bool :=
  match e.action with
  | .branch _ _ _ => true
  | _ => false

theorem filter_isBranch_propagation (depth : Nat) (ls : List Literal) :
    (ls.map (Literal.propagation depth)).filter Event.isBranch = [] := by
  rw [List.filter_eq_nil_iff]
  intro e he
  obtain ⟨l, -, rfl⟩ := List.mem_map.1 he
  simp [Literal.propagation, Event.isBranch]

/-- Traces of the same course branch alike. -/
theorem SameCourse.filter_isBranch {es fs : List Event} (h : SameCourse es fs) :
    es.filter Event.isBranch = fs.filter Event.isBranch := by
  induction h with
  | nil => rfl
  | failed _ ih | satisfied _ _ ih | branched _ _ ih =>
      simp [List.filter_append, filter_isBranch_propagation, List.filter_cons, Event.isBranch, ih]

/-- Two findings of the same course, with the same counts and models with the same bindings. -/
structure Finding.Alike (d e : Finding) : Prop where
  course : SameCourse d.events e.events
  stats : d.stats.Alike e.stats
  model : Option.Rel Assignment.Agrees d.model e.model

namespace Finding

variable {depth : Nat} {ls ks : List Literal} {b e : Assignment} {v : String}
  {first second first' second' : Finding}

theorem alike_failed (depth i j : Nat) (ls ks : List Literal) :
    (leaf depth (.failed depth ls i) [] none).Alike (leaf depth (.failed depth ks j) [] none) where
  course := by simpa [leaf, Propagation.failed] using SameCourse.failed SameCourse.nil
  stats := (Propagation.alike_failed depth i j ls ks).merge (.refl _)
  model := .none

theorem alike_satisfied (same : ls.Perm ks) (hbe : b.Agrees e) :
    (leaf depth (.settled depth ls b) [⟨.allSatisfied, depth⟩] (some b)).Alike
      (leaf depth (.settled depth ks e) [⟨.allSatisfied, depth⟩] (some e)) where
  course := .satisfied same .nil
  stats := (Propagation.alike_settled depth ls ks b e).merge (.refl _)
  model := .some hbe

theorem Alike.found (same : ls.Perm ks) (h : first.Alike first') :
    (found depth (.settled depth ls b) v first).Alike
      (found depth (.settled depth ks e) v first') where
  course := .branched same h.course
  stats := ((Propagation.alike_settled depth ls ks b e).merge (.refl _)).merge h.stats
  model := h.model

theorem Alike.backtracked (same : ls.Perm ks) (h : first.Alike first') (k : second.Alike second') :
    (backtracked depth (.settled depth ls b) v first second).Alike
      (backtracked depth (.settled depth ks e) v first' second') where
  course := .branched same (h.course.append (.branched (.refl []) k.course))
  stats :=
    (((Propagation.alike_settled depth ls ks b e).merge (.refl _)).merge h.stats).merge k.stats
  model := k.model

end Finding

/-! ## Two searches at once -/

/-- Assignments with the same bindings have the same first free name. -/
theorem firstFree?_inj {a b : Assignment} {order : List String} {v w : String} (h : a.Agrees b)
    (hv : firstFree? order a = some v) (hw : firstFree? order b = some w) : v = w := by
  have hab : firstFree? order a = firstFree? order b := by
    simp only [firstFree?, h.binds_eq]
  rw [hv, hw] at hab
  exact Option.some.inj hab

/-- Searches over reordered formulas that start with the same bindings go alike. -/
theorem Explored.alike {f g : Formula} {order : List String} {depth : Nat} {a a' : Assignment}
    {d d' : Finding} (hfg : f.ReordersInto g) (hgf : g.ReordersInto f)
    (h : Explored f order depth a d) (h' : Explored g order depth a' d') (ha : a.Agrees a') :
    d.Alike d' := by
  induction h generalizing a' d' with
  | failed chain clause falsified =>
      cases h' with
      | failed => exact Finding.alike_failed _ _ _ _ _
      | satisfied chain' settled' | found chain' settled' | backtracked chain' settled' =>
          exact absurd settled' (chain.not_settled_of_falsified clause falsified hfg chain' ha)
  | satisfied chain settled holds =>
      cases h' with
      | failed chain' clause' falsified' =>
          exact absurd settled
            (chain'.not_settled_of_falsified clause' falsified' hgf chain ha.symm)
      | satisfied chain' settled' =>
          have hb := chain.agrees_of_settled settled chain' settled' hfg hgf ha
          exact Finding.alike_satisfied (chain.perm_of_agrees chain' ha hb) hb
      | found chain' settled' undecided' | backtracked chain' settled' undecided' =>
          have hb := chain.agrees_of_settled settled chain' settled' hfg hgf ha
          rw [← Formula.satisfiedBy_eq_of_reorders hfg hgf hb, holds] at undecided'
          cases undecided'
  | found chain settled undecided free left model ih =>
      cases h' with
      | failed chain' clause' falsified' =>
          exact absurd settled
            (chain'.not_settled_of_falsified clause' falsified' hgf chain ha.symm)
      | satisfied chain' settled' holds' =>
          have hb := chain.agrees_of_settled settled chain' settled' hfg hgf ha
          rw [Formula.satisfiedBy_eq_of_reorders hfg hgf hb, holds'] at undecided
          cases undecided
      | found chain' settled' _ free' left' =>
          have hb := chain.agrees_of_settled settled chain' settled' hfg hgf ha
          obtain rfl := firstFree?_inj hb free free'
          exact (ih left' (hb.extend _ true)).found (chain.perm_of_agrees chain' ha hb)
      | backtracked chain' settled' _ free' left' refuted' =>
          -- the first branches are alike, so they hold a model both or neither
          have hb := chain.agrees_of_settled settled chain' settled' hfg hgf ha
          obtain rfl := firstFree?_inj hb free free'
          have hmodel := (ih left' (hb.extend _ true)).model
          rw [model, refuted'] at hmodel
          cases hmodel
  | backtracked chain settled undecided free left refuted right ih₁ ih₂ =>
      cases h' with
      | failed chain' clause' falsified' =>
          exact absurd settled
            (chain'.not_settled_of_falsified clause' falsified' hgf chain ha.symm)
      | satisfied chain' settled' holds' =>
          have hb := chain.agrees_of_settled settled chain' settled' hfg hgf ha
          rw [Formula.satisfiedBy_eq_of_reorders hfg hgf hb, holds'] at undecided
          cases undecided
      | found chain' settled' _ free' left' model' =>
          have hb := chain.agrees_of_settled settled chain' settled' hfg hgf ha
          obtain rfl := firstFree?_inj hb free free'
          have hmodel := (ih₁ left' (hb.extend _ true)).model
          rw [refuted, model'] at hmodel
          cases hmodel
      | backtracked chain' settled' _ free' left' _ right' =>
          have hb := chain.agrees_of_settled settled chain' settled' hfg hgf ha
          obtain rfl := firstFree?_inj hb free free'
          exact (ih₁ left' (hb.extend _ true)).backtracked (chain.perm_of_agrees chain' ha hb)
            (ih₂ right' (hb.extend _ false))

/-! ## Two answers -/

/-- The same verdict with the same total assignment, and snapshots with the same bindings. -/
inductive Verdict.Alike : Verdict → Verdict → Prop
  | satisfiable {assignment snapshot snapshot' : Assignment} (same : snapshot.Agrees snapshot') :
      Alike (.satisfiable assignment snapshot) (.satisfiable assignment snapshot')
  | unsatisfiable : Alike .unsatisfiable .unsatisfiable

/-- The same answer along the same branches, with the same counts apart from propagations. -/
structure Outcome.Alike (o p : Outcome) : Prop where
  verdict : o.verdict.Alike p.verdict
  branches : o.trace.filter Event.isBranch = p.trace.filter Event.isBranch
  stats : o.stats.Alike p.stats
  course : SameCourse o.trace p.trace

theorem Formula.completion_eq_of_agrees {f g : Formula} {a b : Assignment}
    (hnames : f.names = g.names) (h : a.Agrees b) : f.completion a = g.completion b := by
  apply Assignment.eq_of_bindings
  show (f.names.map fun v => (v, (a.value? v).getD true)) =
    g.names.map fun v => (v, (b.value? v).getD true)
  rw [hnames]
  apply List.map_congr_left
  intro v _
  rw [h v]

/-- Formulas with the same order of variables whose clauses are reorderings of each other are solved
alike. -/
theorem Formula.solve_alike_of_reorders {f g : Formula} (hnames : f.names = g.names)
    (hfg : f.ReordersInto g) (hgf : g.ReordersInto f) : f.solve.Alike g.solve := by
  have hg : Explored g f.names 0 ∅ (search g g.names 0 ∅) := by
    rw [hnames]
    exact explored_solve g
  have h := (explored_solve f).alike hfg hgf hg fun _ => rfl
  refine
    { verdict := ?_
      branches := h.course.filter_isBranch
      stats := h.stats
      course := h.course }
  have hmodel := h.model
  simp only [solve]
  generalize (search f f.names 0 ∅).model = found at hmodel ⊢
  generalize (search g g.names 0 ∅).model = found' at hmodel ⊢
  cases hmodel with
  | none => exact .unsatisfiable
  | @some a b hab =>
      show Verdict.Alike (.satisfiable (f.completion a) a) (.satisfiable (g.completion b) b)
      rw [completion_eq_of_agrees hnames hab]
      exact .satisfiable hab

/-- Three clauses whose one model is found in the second branch. -/
def secondBranch : Formula where
  clauses :=
    [.ofCons ⟨"A", false⟩ [⟨"B", false⟩], .ofCons ⟨"A", true⟩ [⟨"B", false⟩],
      .ofCons ⟨"A", true⟩ [⟨"B", true⟩]]

/-- The clauses of `secondBranch`, one of them twice. The first branch binds another value of `B`
and fails at another clause. -/
def secondBranchReordered : Formula where
  clauses :=
    [.ofCons ⟨"A", false⟩ [⟨"B", false⟩], .ofCons ⟨"B", true⟩ [⟨"A", true⟩],
      .ofCons ⟨"B", false⟩ [⟨"A", true⟩], .ofCons ⟨"B", false⟩ [⟨"A", false⟩]]

theorem Formula.solve_secondBranch_alike :
    (secondBranch.names = secondBranchReordered.names ∧
      secondBranch.ReordersInto secondBranchReordered ∧
      secondBranchReordered.ReordersInto secondBranch) ∧
      secondBranch.solve.Alike secondBranchReordered.solve :=
  ⟨by decide, solve_alike_of_reorders (by decide) (by decide) (by decide)⟩

end DecisionTrace
