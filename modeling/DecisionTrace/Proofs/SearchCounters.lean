import DecisionTrace.Proofs.TraceGrammar

/-!
# The counters of a search

The counters that a search keeps beside its trace agree with the trace: each is the number of events
of its kind, and the depth reached is the largest depth of an event. For this it matters that no
frame ends without an event.

The counts are tied to each other by the shape of the search tree. Every backtrack opens one leaf
more, and a leaf is a conflict or a success (`FrameWord.leaves_eq`). All this is said of words of
the grammar of traces, and needs no search. `Formula.stats_solve` puts both together.
-/

namespace DecisionTrace

/-! ## Counting events -/

/-- The kinds of actions. -/
inductive ActionKind where
  | propagation
  | conflict
  | success
  | attempt
  | backtrack
deriving DecidableEq

/-- The kind of an action. -/
def Action.kind : Action → ActionKind
  | .propagate _ _ => .propagation
  | .conflict _ => .conflict
  | .allSatisfied => .success
  | .branch .attempt _ _ => .attempt
  | .branch .backtrack _ _ => .backtrack

/-- How many events of a trace are of a kind. -/
def occurrences (kind : ActionKind) (events : List Event) : Nat :=
  events.countP fun e => e.action.kind = kind

@[simp]
theorem occurrences_nil (kind : ActionKind) : occurrences kind [] = 0 :=
  rfl

@[simp]
theorem occurrences_cons (kind : ActionKind) (e : Event) (events : List Event) :
    occurrences kind (e :: events) =
      occurrences kind events + if e.action.kind = kind then 1 else 0 := by
  simp [occurrences, List.countP_cons]

@[simp]
theorem occurrences_append (kind : ActionKind) (events rest : List Event) :
    occurrences kind (events ++ rest) = occurrences kind events + occurrences kind rest :=
  List.countP_append

theorem occurrences_propagations (kind : ActionKind) (depth : Nat) (ls : List Literal) :
    occurrences kind (ls.map (Literal.propagation depth)) =
      if kind = .propagation then ls.length else 0 := by
  induction ls with
  | nil => simp
  | cons l ls ih =>
      rw [List.map_cons, occurrences_cons, ih]
      cases kind <;> simp [Literal.propagation, Action.kind]

/-! ## Counters that agree with a trace -/

theorem Stats.merge_assoc (s t u : Stats) : (s.merge t).merge u = s.merge (t.merge u) := by
  simp only [Stats.merge, Nat.add_assoc, Nat.max_assoc]

/-- The counters are the numbers of events of their kinds, and the depth they name is the largest
depth of an event. -/
structure Stats.Records (s : Stats) (events : List Event) : Prop where
  decisions_eq : s.decisions = occurrences .attempt events
  backtracks_eq : s.backtracks = occurrences .backtrack events
  propagations_eq : s.propagations = occurrences .propagation events
  conflicts_eq : s.conflicts = occurrences .conflict events
  exists_depth_eq : ∃ e ∈ events, e.depth = s.maxDepth
  depth_le : ∀ e ∈ events, e.depth ≤ s.maxDepth

namespace Stats.Records

variable {depth : Nat} {events rest : List Event} {s t : Stats}

/-- What one event adds to the counters. -/
theorem singleton (action : Action) (depth : Nat) :
    Records
      { decisions := if action.kind = .attempt then 1 else 0
        backtracks := if action.kind = .backtrack then 1 else 0
        propagations := if action.kind = .propagation then 1 else 0
        conflicts := if action.kind = .conflict then 1 else 0
        maxDepth := depth } [⟨action, depth⟩] := by
  constructor <;> simp

/-- The counters of two traces together are those of one after the other. -/
theorem append (h : s.Records events) (k : t.Records rest) :
    (s.merge t).Records (events ++ rest) where
  decisions_eq := by simp [merge, h.decisions_eq, k.decisions_eq]
  backtracks_eq := by simp [merge, h.backtracks_eq, k.backtracks_eq]
  propagations_eq := by simp [merge, h.propagations_eq, k.propagations_eq]
  conflicts_eq := by simp [merge, h.conflicts_eq, k.conflicts_eq]
  exists_depth_eq := by
    obtain ⟨e, he, hde⟩ := h.exists_depth_eq
    obtain ⟨e', he', hde'⟩ := k.exists_depth_eq
    rcases Nat.le_total s.maxDepth t.maxDepth with hle | hle
    · exact ⟨e', List.mem_append_right _ he', by simp [merge, hde', Nat.max_eq_right hle]⟩
    · exact ⟨e, List.mem_append_left _ he, by simp [merge, hde, Nat.max_eq_left hle]⟩
  depth_le := by
    intro e he
    rcases List.mem_append.1 he with he | he
    · have := h.depth_le e he
      simp only [merge]
      omega
    · have := k.depth_le e he
      simp only [merge]
      omega

/-- The propagations of a frame are counted, and do not raise the depth that the rest of the frame
has. -/
theorem after_propagations (h : s.Records events) (hdepth : depth ≤ s.maxDepth)
    (ls : List Literal) :
    (merge { propagations := ls.length } s).Records
      (ls.map (Literal.propagation depth) ++ events) where
  decisions_eq := by simp [merge, occurrences_propagations, h.decisions_eq]
  backtracks_eq := by simp [merge, occurrences_propagations, h.backtracks_eq]
  propagations_eq := by simp [merge, occurrences_propagations, h.propagations_eq]
  conflicts_eq := by simp [merge, occurrences_propagations, h.conflicts_eq]
  exists_depth_eq := by
    obtain ⟨e, he, hde⟩ := h.exists_depth_eq
    exact ⟨e, List.mem_append_right _ he, by simp [merge, hde]⟩
  depth_le := by
    intro e he
    simp only [merge, Nat.zero_max]
    rcases List.mem_append.1 he with he | he
    · obtain ⟨l, -, rfl⟩ := List.mem_map.1 he
      simpa [Literal.propagation] using hdepth
    · exact h.depth_le e he

end Stats.Records

/-- The counters of a search agree with its trace. -/
theorem Explored.records {f : Formula} {order : List String} {depth : Nat} {a : Assignment}
    {d : Finding} (h : Explored f order depth a d) : d.stats.Records d.events := by
  induction h with
  | @failed depth i a b ls c chain clause falsified =>
      have hlast := Stats.Records.singleton (.conflict i) depth
      simpa [Finding.leaf, Propagation.failed, Stats.merge, Action.kind] using
        hlast.after_propagations (Nat.le_refl depth) ls
  | @satisfied depth a b ls chain settled holds =>
      have hlast := Stats.Records.singleton .allSatisfied depth
      simpa [Finding.leaf, Propagation.settled, Stats.merge, Action.kind] using
        hlast.after_propagations (Nat.le_refl depth) ls
  | @found depth a b m ls v first chain settled undecided free left model ih =>
      have hattempt := Stats.Records.singleton (.branch .attempt v true) depth
      simp only [Finding.found, Propagation.settled, Stats.merge_assoc]
      exact (hattempt.append ih).after_propagations (Nat.le_max_left _ _) ls
  | @backtracked depth a b ls v first second chain settled undecided free left refuted right ih₁
      ih₂ =>
      have hattempt := Stats.Records.singleton (.branch .attempt v true) depth
      have hbacktrack := Stats.Records.singleton (.branch .backtrack v false) depth
      have hall := (hattempt.append (ih₁.append (hbacktrack.append ih₂))).after_propagations
        (Nat.le_max_left _ _) ls
      -- the frame counts its backtrack before the first subtree, the trace has it after
      have hstats : (Finding.backtracked depth (.settled depth ls b) v first second).stats =
          Stats.merge { propagations := ls.length }
            (Stats.merge { decisions := 1, maxDepth := depth }
              (first.stats.merge
                (Stats.merge { backtracks := 1, maxDepth := depth } second.stats))) := by
        simp only [Finding.backtracked, Propagation.settled, Stats.merge, Stats.mk.injEq]
        omega
      rw [hstats]
      exact hall

/-! ## Leaves and branches -/

namespace FrameWord

variable {order : List String} {depth : Nat} {path : List (String × Bool)} {w : List Event}
  {leaf : Option (List (String × Bool))}

/-- Each backtrack adds a leaf to the one that every word has. -/
theorem leaves_eq (h : FrameWord order depth path w leaf) :
    occurrences .conflict w + occurrences .success w = occurrences .backtrack w + 1 := by
  induction h with
  | propagated _ ih => simpa [Action.kind] using ih
  | failed clause => simp [Action.kind]
  | satisfied => simp [Action.kind]
  | found _ _ ih => simpa [Action.kind] using ih
  | backtracked _ _ _ ih₁ ih₂ =>
      simp only [occurrences_cons, occurrences_append, Action.kind, reduceCtorEq, if_true, if_false]
      omega

/-- There is a success exactly in the words that succeed, and then one. -/
theorem occurrences_success (h : FrameWord order depth path w leaf) :
    occurrences .success w = if leaf.isSome then 1 else 0 := by
  induction h with
  | propagated _ ih => simpa [Action.kind] using ih
  | failed clause => simp [Action.kind]
  | satisfied => simp [Action.kind]
  | found _ _ ih => simpa [Action.kind] using ih
  | backtracked _ _ _ ih₁ ih₂ => simpa [Action.kind, ih₁] using ih₂

theorem backtrack_le_attempt (h : FrameWord order depth path w leaf) :
    occurrences .backtrack w ≤ occurrences .attempt w := by
  induction h with
  | propagated _ ih => simpa [Action.kind] using ih
  | failed clause => simp [Action.kind]
  | satisfied => simp [Action.kind]
  | found _ _ ih =>
      simp only [occurrences_cons, Action.kind, reduceCtorEq, if_true, if_false]
      omega
  | backtracked _ _ _ ih₁ ih₂ =>
      simp only [occurrences_cons, occurrences_append, Action.kind, reduceCtorEq, if_true, if_false]
      omega

/-- In a word that fails every attempt is taken back. -/
theorem attempt_eq_backtrack (h : FrameWord order depth path w leaf) (hleaf : leaf = none) :
    occurrences .attempt w = occurrences .backtrack w := by
  induction h with
  | propagated _ ih => simpa [Action.kind] using ih hleaf
  | failed clause => simp [Action.kind]
  | satisfied => cases hleaf
  | found => cases hleaf
  | backtracked _ _ _ ih₁ ih₂ =>
      have h₁ := ih₁ rfl
      have h₂ := ih₂ hleaf
      simp only [occurrences_cons, occurrences_append, Action.kind, reduceCtorEq, if_true, if_false]
      omega

/-- A word that succeeds ends in its success. -/
theorem getLast?_eq (h : FrameWord order depth path w leaf) (hleaf : leaf.isSome = true) :
    ∃ k, w.getLast? = some ⟨.allSatisfied, k⟩ := by
  induction h with
  | failed => cases hleaf
  | satisfied => exact ⟨_, rfl⟩
  | propagated _ ih | found _ _ ih =>
      obtain ⟨k, hk⟩ := ih hleaf
      exact ⟨k, by simp [List.getLast?_cons, hk]⟩
  | backtracked _ _ _ _ ih₂ =>
      obtain ⟨k, hk⟩ := ih₂ hleaf
      exact ⟨k, by simp [List.getLast?_append, List.getLast?_cons, hk]⟩

end FrameWord

/-! ## Whole searches -/

/-- The counters of a search agree with its trace. Without a model there are as many backtracks as
decisions, one conflict more and no success. With a model there are as many conflicts as backtracks,
no more of these than decisions, and one success, which is the last event. -/
theorem Formula.stats_solve (f : Formula) :
    f.solve.stats.Records f.solve.trace ∧
    match f.solve.verdict with
    | .unsatisfiable =>
      f.solve.stats.decisions = f.solve.stats.backtracks ∧
      f.solve.stats.conflicts = f.solve.stats.backtracks + 1 ∧
      occurrences .success f.solve.trace = 0
    | .satisfiable _ _ =>
      f.solve.stats.conflicts = f.solve.stats.backtracks ∧
      f.solve.stats.backtracks ≤ f.solve.stats.decisions ∧
      occurrences .success f.solve.trace = 1 ∧
      ∃ depth, f.solve.trace.getLast? = some ⟨.allSatisfied, depth⟩ := by
  have hx := explored_solve f
  have hrecords := hx.records
  have hword := hx.frameWord
  have hleaves := hword.leaves_eq
  have hsuccess := hword.occurrences_success
  have hle := hword.backtrack_le_attempt
  refine ⟨hrecords, ?_⟩
  simp only [solve, hrecords.decisions_eq, hrecords.backtracks_eq, hrecords.conflicts_eq]
  cases hd : (search f f.names 0 ∅).model with
  | none =>
      simp only [hd, Option.map_none, Option.isSome_none, Bool.false_eq_true, if_false] at hsuccess
      exact ⟨hword.attempt_eq_backtrack (by simp [hd]), by omega, hsuccess⟩
  | some b =>
      simp only [hd, Option.map_some, Option.isSome_some, if_true] at hsuccess
      exact ⟨by omega, hle, hsuccess, hword.getLast?_eq (by simp [hd])⟩

end DecisionTrace
