import DecisionTrace.Proofs.AcceptedSearch
import DecisionTrace.Proofs.Refutation

/-!
# Backtracks out of failed branches

The replay accepts a backtrack without asking whether the attempted branch has failed. It would be
enough to ask for a conflict right before every backtrack: an accepted refutation with this property
shows that the formula is unsatisfiable, and the traces of searches have it
(`unsatisfiable_of_backtracksFail`).

The invariant goes from the shallowest level to the deepest. At every level the question whether a
model is left is passed on: from the frame, or from the attempted branch if there is one, to the
frame of the next level (`Carries`). A conflict answers it for the deepest level, and the answer
reaches down to the first level that no open attempt separates from it.
-/

namespace DecisionTrace

/-! ## No model above an assignment -/

namespace Formula

variable {f : Formula} {a : Assignment} {n : String}

/-- A forced binding loses no model. -/
theorem noModelAbove_of_forced {v : Bool} (hfree : a.binds n = false)
    (hforced : f.forces a ⟨n, !v⟩ = true) (h : f.NoModelAbove (a.extend n v)) :
    f.NoModelAbove a := by
  intro m ham
  by_contra hm
  rw [Bool.not_eq_false] at hm
  have hv := value?_of_forces hforced ham hm
  rw [h m ((Assignment.extend_le_iff hfree).2 ⟨ham, hv⟩)] at hm
  cases hm

/-- Where neither value of a variable leaves a model there is none. -/
theorem noModelAbove_of_branches (ht : f.NoModelAbove (a.set n true))
    (hf : f.NoModelAbove (a.set n false)) : f.NoModelAbove a := by
  intro m ham
  by_contra hm
  rw [Bool.not_eq_false] at hm
  have hv := value?_of_noModelAbove ht ham hm
  rw [hf m (Assignment.set_le ham hv)] at hm
  cases hm

theorem forces_eq_false_of_settled (h : f.Settled a) (l : Literal) : f.forces a l = false := by
  rw [← Bool.not_eq_true, forces_iff]
  rintro ⟨c, hc, hu⟩
  rcases Clause.idle_iff_status.1 (h c hc) with hs | hs <;> · rw [hu] at hs; cases hs

end Formula

namespace Replay

variable {f : Formula} {a : Assignment} {position : Nat} {entries : List Entry} {entry : Entry}
  {below deeper levels levels' : List Level} {level : Level}

/-! ## Carrying the question to the deepest level -/

/-- The branch that is open at a level, or the whole frame if none is. -/
def scope (level : Level) : Assignment :=
  match level.openTry with
  | some n => level.frame.set n true
  | none => level.frame

/-- Whether a model lies above the assignment is passed on from level to level. A level with an open
attempt has nothing left to propagate. -/
def Carries (f : Formula) : Assignment → List Level → Prop
  | _, [] => True
  | a, level :: levels =>
    (f.NoModelAbove level.frame → f.NoModelAbove a) ∧
      (level.openTry ≠ none → f.Settled level.frame) ∧ Carries f (scope level) levels

/-- The deepest level has a falsified clause. -/
def Failed (f : Formula) (levels : List Level) : Prop :=
  ∃ level, levels.getLast? = some level ∧ ∃ c ∈ f.clauses, c.status level.frame = .falsified

theorem failed_append_cons :
    Failed f (below ++ level :: levels) ↔ Failed f (level :: levels) := by
  simp [Failed, List.getLast?_append, List.getLast?_cons]

theorem failed_cons_cons {next : Level} :
    Failed f (level :: next :: levels) ↔ Failed f (next :: levels) := by
  simp [Failed, List.getLast?_cons]

theorem failed_singleton :
    Failed f [level] ↔ ∃ c ∈ f.clauses, c.status level.frame = .falsified := by
  simp [Failed]

/-- A failed deepest level answers the question when no attempt is open. -/
theorem noModelAbove_of_failed (h : Carries f a levels) (hfail : Failed f levels)
    (hclosed : ∀ l ∈ levels, l.openTry = none) : f.NoModelAbove a := by
  induction levels generalizing a with
  | nil =>
      obtain ⟨level, hlast, -⟩ := hfail
      cases hlast
  | cons level levels ih =>
      obtain ⟨hframe, -, hrest⟩ := h
      rw [List.forall_mem_cons] at hclosed
      apply hframe
      cases levels with
      | nil =>
          obtain ⟨c, hc, hs⟩ := failed_singleton.1 hfail
          intro m ham
          exact Formula.satisfiedBy_of_falsified hc hs ham
      | cons next levels =>
          have hscope : scope level = level.frame := by rw [scope, hclosed.1]
          rw [← hscope]
          exact ih hrest (failed_cons_cons.1 hfail) hclosed.2

/-- Only what a step does to the deepest level and above has to be looked at. -/
theorem carries_deepest (h : Carries f a (below ++ level :: deeper))
    (hnew : ∀ a, (f.NoModelAbove level.frame → f.NoModelAbove a) →
      (level.openTry ≠ none → f.Settled level.frame) → Carries f (scope level) deeper →
      Carries f a levels) : Carries f a (below ++ levels) := by
  induction below generalizing a with
  | nil =>
      obtain ⟨hframe, hsettled, hrest⟩ := h
      exact hnew a hframe hsettled hrest
  | cons first below ih =>
      obtain ⟨hframe, hsettled, hrest⟩ := h
      exact ⟨hframe, hsettled, ih hrest⟩

/-! ## Steps and runs -/

/-- Whether an entry is a backtrack. -/
def isBacktrack : Entry → Bool
  | .event ⟨.branch .backtrack _ _, _⟩ => true
  | _ => false

/-- Every backtrack of a trace comes right after a conflict. Whether the trace itself comes after
one is given. -/
def BacktracksFail : (afterConflict : Bool) → List Entry → Prop
  | _, [] => True
  | afterConflict, entry :: entries =>
    (isBacktrack entry = true → afterConflict = true) ∧ BacktracksFail (isConflict entry) entries

/-- An accepted step keeps passing the question on, if a backtrack finds the deepest level
failed. -/
theorem carries_step (hstep : step f position entry (.running levels) = .ok (.running levels'))
    (hback : isBacktrack entry = true → Failed f levels) (h : Carries f a levels) :
    Carries f a levels' := by
  obtain ⟨action, below, level, deeper, rfl, rfl, hclosed, hadmits⟩ := exists_admits_of_step hstep
  cases hadmits with
  | @propagate n v free forced =>
      apply carries_deepest h
      intro a hframe hsettled _
      refine ⟨fun hn => hframe (Formula.noModelAbove_of_forced free forced hn), ?_, trivial⟩
      intro hopen
      rw [Formula.forces_eq_false_of_settled (hsettled hopen)] at forced
      cases forced
  | conflict =>
      apply carries_deepest h
      intro a hframe hsettled _
      exact ⟨hframe, hsettled, trivial⟩
  | attempt _ _ settled =>
      apply carries_deepest h
      intro a hframe _ _
      exact ⟨hframe, fun _ => settled, id, fun hopen => absurd rfl hopen, trivial⟩
  | @backtrack n opened =>
      have hfail : Failed f (level :: deeper) := failed_append_cons.1 (hback rfl)
      apply carries_deepest h
      intro a hframe hsettled hrest
      have hset : f.Settled level.frame := hsettled (by simp [opened])
      have hscope : scope level = level.frame.set n true := by rw [scope, opened]
      have htrue : f.NoModelAbove (level.frame.set n true) := by
        cases deeper with
        | nil =>
            -- a level with an open attempt has not failed itself
            obtain ⟨c, hc, hs⟩ := failed_singleton.1 hfail
            exact absurd (hset c hc) (Clause.not_idle_of_falsified hs (le_refl _))
        | cons next deeper =>
            rw [← hscope]
            exact noModelAbove_of_failed hrest (failed_cons_cons.1 hfail) hclosed
      refine ⟨hframe, fun hopen => absurd rfl hopen, ?_, fun hopen => absurd rfl hopen, trivial⟩
      exact Formula.noModelAbove_of_branches htrue

/-- After an accepted conflict the deepest level has failed. -/
theorem failed_of_conflict
    (hstep : step f position entry (.running levels) = .ok (.running levels'))
    (hconf : isConflict entry = true) : Failed f levels' := by
  obtain ⟨below, level, hlevels, -, hfalse⟩ := exists_falsified_of_step hstep hconf
  obtain rfl := Replay.running.inj hlevels
  rw [failed_append_cons, failed_singleton]
  exact hfalse

/-- A whole replay keeps passing the question on, if every backtrack comes right after a
conflict. -/
theorem carries_run {afterConflict : Bool}
    (hrun : run f position entries (.running levels) = .ok (.running levels'))
    (hback : BacktracksFail afterConflict entries)
    (hfirst : afterConflict = true → Failed f levels) (h : Carries f a levels) :
    Carries f a levels' := by
  refine (run_invariant (P := fun _ entries levels =>
    ∃ afterConflict, BacktracksFail afterConflict entries ∧
      (afterConflict = true → Failed f levels) ∧ Carries f a levels) ?_ hrun
    ⟨_, hback, hfirst, h⟩).elim fun _ hend => hend.2.2
  rintro position entry entries levels mid hstep ⟨afterConflict, ⟨hentry, htail⟩, hfirst, h⟩
  exact ⟨_, htail, failed_of_conflict hstep, carries_step hstep (fun hb => hfirst (hentry hb)) h⟩

/-! ## The traces of searches -/

/-- A backtrack comes right after every conflict that does not end the trace, and nowhere else.
Whether the trace itself comes after a conflict is given. -/
def Alternates : (afterConflict : Bool) → List Entry → Prop
  | _, [] => True
  | afterConflict, entry :: entries =>
    isBacktrack entry = afterConflict ∧ Alternates (isConflict entry) entries

theorem Alternates.backtracksFail {b : Bool} (h : Alternates b entries) :
    BacktracksFail b entries := by
  induction entries generalizing b with
  | nil => trivial
  | cons entry entries ih =>
      obtain ⟨hentry, hrest⟩ := h
      exact ⟨fun hback => hentry.symm.trans hback, ih hrest⟩

theorem alternates_propagations {rest : List Entry} (hrest : Alternates false rest) (depth : Nat)
    (ls : List Literal) :
    Alternates false ((ls.map (Literal.propagation depth)).map Entry.event ++ rest) := by
  induction ls with
  | nil => exact hrest
  | cons l ls ih => exact ⟨rfl, ih⟩

/-- A search backtracks exactly after its conflicts, and ends in one exactly if it finds nothing. -/
theorem alternates_explored {order : List String} {depth : Nat} {d : Finding}
    {rest : List Entry} (h : Explored f order depth a d)
    (hrest : Alternates d.model.isNone rest) :
    Alternates false (d.events.map Entry.event ++ rest) := by
  induction h generalizing rest with
  | @failed depth i _ _ ls =>
      have hend : Alternates false (.event ⟨.conflict i, depth⟩ :: rest) := ⟨rfl, hrest⟩
      simp only [Finding.leaf, Propagation.failed, List.map_append, List.append_assoc]
      exact alternates_propagations hend depth ls
  | @satisfied depth _ _ ls =>
      have hend : Alternates false (.event ⟨.allSatisfied, depth⟩ :: rest) := ⟨rfl, hrest⟩
      simp only [Finding.leaf, Propagation.settled, List.map_append, List.append_assoc]
      exact alternates_propagations hend depth ls
  | @found depth _ _ _ ls v first _ _ _ _ _ _ ih =>
      have hbranch : Alternates false (.event ⟨.branch .attempt v true, depth⟩ ::
          (first.events.map Entry.event ++ rest)) :=
        ⟨rfl, ih hrest⟩
      simp only [Finding.found, Propagation.settled, List.map_append, List.append_assoc]
      exact alternates_propagations hbranch depth ls
  | @backtracked depth _ _ ls v first second _ _ _ _ _ refuted _ ih₁ ih₂ =>
      have hsecond : Alternates true (.event ⟨.branch .backtrack v false, depth⟩ ::
          (second.events.map Entry.event ++ rest)) :=
        ⟨rfl, ih₂ hrest⟩
      rw [refuted] at ih₁
      have hbranch : Alternates false (.event ⟨.branch .attempt v true, depth⟩ ::
          (first.events.map Entry.event ++ .event ⟨.branch .backtrack v false, depth⟩ ::
            (second.events.map Entry.event ++ rest))) :=
        ⟨rfl, ih₁ hsecond⟩
      simp only [Finding.backtracked, Propagation.settled, List.map_append, List.map_cons,
        List.append_assoc, List.cons_append]
      exact alternates_propagations hbranch depth ls

/-- The trace of every search backtracks exactly after its conflicts. -/
theorem alternates_solve (f : Formula) : Alternates false (f.solve.trace.map Entry.event) := by
  have hnil : Alternates (search f f.names 0 ∅).model.isNone [] := trivial
  have h := alternates_explored (explored_solve f) hnil
  rwa [List.append_nil] at h

/-! ## Certified refutations -/

/-- The traces of searches have every backtrack right after a conflict, and if an accepted
refutation has, its formula is unsatisfiable. -/
theorem unsatisfiable_of_backtracksFail (f : Formula) :
    BacktracksFail false (f.solve.trace.map Entry.event) ∧
      ∀ entries, check f .unsatisfiable entries = none → BacktracksFail false entries →
        ∀ m, f.satisfiedBy m = false := by
  refine ⟨(alternates_solve f).backtracksFail, ?_⟩
  intro entries h hback m
  obtain ⟨levels, hrun, hlast, hclosed⟩ := check_unsatisfiable_eq_none_iff.1 h
  have hstart : Carries f ∅ [{ frame := ∅ }] := ⟨id, fun hopen => absurd rfl hopen, trivial⟩
  have hcarries := carries_run hrun hback (fun hfalse => by cases hfalse) hstart
  obtain ⟨below, level, c, hc, hfinal, hfalse⟩ := falsified_of_getLast? hrun hlast
  obtain rfl : levels = below ++ [level] := by simpa using hfinal
  have hfail : Failed f (below ++ [level]) :=
    failed_append_cons.2 (failed_singleton.2 ⟨c, hc, hfalse⟩)
  exact noModelAbove_of_failed hcarries hfail hclosed m (Assignment.empty_le m)

/-- A refutation of `allClauses` that no search would write: it branches on a variable that the
formula does not have, names one conflict twice, and drops a finished part of its tree to begin
again. -/
def wandering : List Entry :=
  [.event ⟨.branch .attempt "Z" true, 0⟩, .event ⟨.branch .attempt "A" true, 1⟩,
    .event ⟨.propagate "B" true, 2⟩, .event ⟨.conflict 3, 2⟩, .event ⟨.conflict 3, 2⟩,
    .event ⟨.branch .backtrack "A" false, 1⟩, .event ⟨.propagate "B" true, 2⟩,
    .event ⟨.conflict 1, 2⟩, .event ⟨.branch .backtrack "Z" false, 0⟩,
    .event ⟨.branch .attempt "A" true, 0⟩, .event ⟨.propagate "B" true, 1⟩,
    .event ⟨.conflict 3, 1⟩, .event ⟨.branch .backtrack "A" false, 0⟩,
    .event ⟨.propagate "B" true, 1⟩, .event ⟨.conflict 1, 1⟩]

theorem unsatisfiable_wandering :
    (check allClauses .unsatisfiable wandering = none ∧ BacktracksFail false wandering) ∧
      ∀ m, allClauses.satisfiedBy m = false := by
  have hcheck : check allClauses .unsatisfiable wandering = none := by decide
  have hback : BacktracksFail false wandering := by
    simp [BacktracksFail, wandering, isBacktrack, isConflict]
  exact ⟨⟨hcheck, hback⟩, (unsatisfiable_of_backtracksFail allClauses).2 _ hcheck hback⟩

end Replay

end DecisionTrace
