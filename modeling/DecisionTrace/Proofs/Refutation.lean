import DecisionTrace.Proofs.ReplaySteps

/-!
# What an accepted refutation shows

The replay checks of a backtrack that it names the open attempt of its level. It does not ask
whether the attempted branch has failed, so a trace may give up an attempt at once and still be
accepted (`not_unsatisfiable_of_givenUp`). An accepted refutation therefore shows only that
every model lies in an attempt that some backtrack has left. `unsatisfiable_iff_leftAttempts` puts
this as the exact condition: the formula of an accepted refutation is unsatisfiable if and only if
none of these attempts holds a model.

The proof follows one model through the replay. As long as no left attempt holds a model, the model
lies above the frame of every level that has only closed levels below it (`Follows`). At the end all
levels are closed and the last one has a falsified clause.
-/

namespace DecisionTrace

namespace Formula

variable {f : Formula} {a m : Assignment} {n : String}

/-- No model lies above the assignment. -/
def NoModelAbove (f : Formula) (a : Assignment) : Prop :=
  ∀ m, a ≤ m → f.satisfiedBy m = false

/-- A forced literal is true in every model above. -/
theorem value?_of_forces {v : Bool} (h : f.forces a ⟨n, !v⟩ = true) (ha : a ≤ m)
    (hm : f.satisfiedBy m = true) : m.value? n = some v := by
  obtain ⟨c, hc, hu⟩ := forces_iff.1 h
  have hv := Clause.value?_of_unit hu ha (satisfiedBy_iff.1 hm c hc)
  rwa [Literal.satisfyingValue, Bool.not_not] at hv

/-- Where the value true leaves no model, every model has the value false. -/
theorem value?_of_noModelAbove (h : f.NoModelAbove (a.set n true)) (ha : a ≤ m)
    (hm : f.satisfiedBy m = true) : m.value? n = some false := by
  cases hv : m.value? n with
  | none =>
      -- a model that leaves the variable free could take the value true
      have hle : a.set n true ≤ m.extend n true :=
        Assignment.set_le (le_trans ha (Assignment.le_extend m n true)) (by simp [hv])
      have hext := satisfiedBy_mono (Assignment.le_extend m n true) hm
      rw [h _ hle] at hext
      cases hext
  | some v =>
      cases v with
      | true =>
          rw [h m (Assignment.set_le ha hv)] at hm
          cases hm
      | false => rfl

end Formula

namespace Replay

/-! ## Left attempts -/

/-- The attempt that an entry leaves for the second branch: the frame of its level with the
attempted binding. -/
def leftAttempt? : Entry → Replay → Option Assignment
  | .event ⟨.branch .backtrack name _, depth⟩, .running levels =>
    levels[depth.toNat]?.map fun level => level.frame.set name true
  | _, _ => none

/-- The attempts that the backtracks of a trace leave, as far as the trace is accepted. -/
def leftAttempts (f : Formula) : (position : Nat) → List Entry → Replay → List Assignment
  | _, [], _ => []
  | position, entry :: entries, r =>
    match step f position entry r with
    | .error _ => []
    | .ok next => (leftAttempt? entry r).toList ++ leftAttempts f (position + 1) entries next

variable {f : Formula} {m : Assignment} {position : Nat} {entries : List Entry} {entry : Entry}
  {below deeper levels levels' : List Level} {level : Level} {next final : Replay}

/-! ## Following a model -/

/-- The assignment lies above the frame of every level that has only closed levels below it. -/
def Follows (m : Assignment) : List Level → Prop
  | [] => True
  | level :: levels => level.frame ≤ m ∧ (level.openTry = none → Follows m levels)

theorem follows_append :
    Follows m (below ++ levels) ↔
      Follows m below ∧ ((∀ l ∈ below, l.openTry = none) → Follows m levels) := by
  induction below with
  | nil => simp [Follows]
  | cons level below ih =>
      rw [List.cons_append, Follows, Follows, ih, List.forall_mem_cons]
      constructor
      · rintro ⟨hle, h⟩
        exact ⟨⟨hle, fun ho => (h ho).1⟩, fun hall => (h hall.1).2 hall.2⟩
      · rintro ⟨⟨hle, h₁⟩, h₂⟩
        exact ⟨hle, fun ho => ⟨h₁ ho, fun hall => h₂ ⟨ho, hall⟩⟩⟩

theorem follows_singleton : Follows m [level] ↔ level.frame ≤ m := by
  simp [Follows]

/-- Only the deepest level has to be looked at when a step changes it or puts a level on top. -/
theorem follows_deepest (h : Follows m (below ++ level :: deeper))
    (hnew : level.frame ≤ m → Follows m levels) : Follows m (below ++ levels) := by
  rw [follows_append] at h ⊢
  exact ⟨h.1, fun hclosed => hnew (h.2 hclosed).1⟩

/-- A model keeps following through an accepted step, unless the step leaves an attempt that holds
a model. -/
theorem follows_step (hm : f.satisfiedBy m = true)
    (hleft : ∀ a ∈ leftAttempt? entry (.running levels), f.NoModelAbove a)
    (hstep : step f position entry (.running levels) = .ok (.running levels'))
    (h : Follows m levels) : Follows m levels' := by
  obtain ⟨action, below, level, deeper, rfl, rfl, -, hadmits⟩ := exists_admits_of_step hstep
  cases hadmits with
  | @propagate n v free forced =>
      apply follows_deepest h
      intro hle
      have hv := Formula.value?_of_forces forced hle hm
      rw [follows_singleton]
      exact (Assignment.extend_le_iff free).2 ⟨hle, hv⟩
  | conflict => exact follows_deepest h follows_singleton.2
  | attempt =>
      apply follows_deepest h
      intro hle
      exact ⟨hle, fun hopen => by cases hopen⟩
  | @backtrack n opened =>
      apply follows_deepest h
      intro hle
      have hnone : f.NoModelAbove (level.frame.set n true) := by
        apply hleft
        simp [leftAttempt?]
      have hv := Formula.value?_of_noModelAbove hnone hle hm
      exact ⟨hle, fun _ => follows_singleton.2 (Assignment.set_le hle hv)⟩

/-- A model follows a whole replay that leaves no attempt with a model. -/
theorem follows_run (hm : f.satisfiedBy m = true)
    (hrun : run f position entries (.running levels) = .ok (.running levels'))
    (hleft : ∀ a ∈ leftAttempts f position entries (.running levels), f.NoModelAbove a)
    (h : Follows m levels) : Follows m levels' := by
  refine (run_invariant (P := fun position entries levels =>
    (∀ a ∈ leftAttempts f position entries (.running levels), f.NoModelAbove a) ∧
      Follows m levels) ?_ hrun ⟨hleft, h⟩).2
  rintro position entry entries levels mid hstep ⟨hleft, h⟩
  rw [leftAttempts, hstep] at hleft
  simp only [List.mem_append, Option.mem_toList] at hleft
  exact ⟨fun a ha => hleft a (Or.inr ha),
    follows_step hm (fun a ha => hleft a (Or.inl ha)) hstep h⟩

/-! ## The end of a refutation -/

theorem frame_le_of_follows (h : Follows m (below ++ [level]))
    (hclosed : ∀ l ∈ below ++ [level], l.openTry = none) : level.frame ≤ m := by
  rw [follows_append] at h
  exact follows_singleton.1 (h.2 fun l hl => hclosed l (List.mem_append_left _ hl))

/-- A run that ends in a conflict ends with a falsified clause in its deepest level. -/
theorem falsified_of_getLast? {r : Replay} (hrun : run f position entries r = .ok final)
    (hlast : entries.getLast?.any isConflict = true) :
    ∃ below level, ∃ c ∈ f.clauses,
      final = .running (below ++ [level]) ∧ c.status level.frame = .falsified := by
  obtain ⟨entry, hget, hconflict⟩ := (Option.any_eq_true _ _).1 hlast
  obtain ⟨below, level, hfinal, -, c, hc, hfalse⟩ :=
    exists_falsified_of_getLast? hrun hget hconflict
  exact ⟨below, level, c, hc, hfinal, hfalse⟩

/-- The formula of an accepted refutation is unsatisfiable exactly if no attempt that the trace has
left for a second branch holds a model. -/
theorem unsatisfiable_iff_leftAttempts (h : check f .unsatisfiable entries = none) :
    (∀ m, f.satisfiedBy m = false) ↔
      ∀ a ∈ leftAttempts f 0 entries start, f.NoModelAbove a := by
  constructor
  · intro hall a _ m _
    exact hall m
  · intro hleft m
    by_contra hm
    rw [Bool.not_eq_false] at hm
    obtain ⟨levels, hrun, hlast, hclosed⟩ := check_unsatisfiable_eq_none_iff.1 h
    have hstart : Follows m [{ frame := ∅ }] := follows_singleton.2 (Assignment.empty_le m)
    have hfollows := follows_run hm hrun hleft hstart
    obtain ⟨below, level, c, hc, hfinal, hfalse⟩ := falsified_of_getLast? hrun hlast
    obtain rfl : levels = below ++ [level] := by simpa using hfinal
    rw [Formula.satisfiedBy_of_falsified hc hfalse (frame_le_of_follows hfollows hclosed)] at hm
    cases hm

/-- All four clauses over two variables. -/
def allClauses : Formula where
  clauses :=
    [.ofCons ⟨"A", false⟩ [⟨"B", false⟩], .ofCons ⟨"A", false⟩ [⟨"B", true⟩],
      .ofCons ⟨"A", true⟩ [⟨"B", false⟩], .ofCons ⟨"A", true⟩ [⟨"B", true⟩]]

/-- A refutation of `allClauses` in which both branches fail. -/
def bothBranches : List Entry :=
  [.event ⟨.branch .attempt "A" true, 0⟩, .event ⟨.propagate "B" true, 1⟩,
    .event ⟨.conflict 3, 1⟩, .event ⟨.branch .backtrack "A" false, 0⟩,
    .event ⟨.propagate "B" true, 1⟩, .event ⟨.conflict 1, 1⟩]

theorem leftAttempts_bothBranches :
    check allClauses .unsatisfiable bothBranches = none ∧
      ((∀ m, allClauses.satisfiedBy m = false) ↔
        ∀ a ∈ leftAttempts allClauses 0 bothBranches start, allClauses.NoModelAbove a) :=
  ⟨by decide, unsatisfiable_iff_leftAttempts (by decide)⟩

/-! ## An attempt given up at once -/

/-- Two clauses that hold exactly where `A` is true. -/
def trueOfA : Formula where
  clauses := [.ofCons ⟨"A", false⟩ [⟨"B", false⟩], .ofCons ⟨"A", false⟩ [⟨"B", true⟩]]

/-- A refutation of `trueOfA` that backtracks from its attempt without having looked into it. -/
def givenUp : List Event :=
  [⟨.branch .attempt "A" true, 0⟩, ⟨.branch .backtrack "A" false, 0⟩,
    ⟨.propagate "B" true, 1⟩, ⟨.conflict 1, 1⟩]

/-- A formula with a refutation that is accepted need not be unsatisfiable. -/
theorem not_unsatisfiable_of_givenUp :
    ¬ ∀ (f : Formula) (events : List Event),
      check f .unsatisfiable (events.map Entry.event) = none → ∀ m, f.satisfiedBy m = false := by
  intro h
  have hmodel : trueOfA.satisfiedBy (Assignment.empty.extend "A" true) = true := by decide
  rw [h trueOfA givenUp (by decide)] at hmodel
  cases hmodel

end Replay

end DecisionTrace
