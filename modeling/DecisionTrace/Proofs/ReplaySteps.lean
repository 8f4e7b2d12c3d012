import DecisionTrace.Replay
import DecisionTrace.Proofs.Models

/-!
# The steps of a replay

`Replay.Admits` lists what the deepest level of a replay admits, each action with the condition it
is checked for and with where the replay stands after it. `step_event_eq_ok_iff` says that a step
is accepted exactly when the level at its depth admits its action and no deeper level has an open
attempt. Statements about replays rest on this list and do not look into the checks again.

`exists_admits_of_step` is the same for any entry, read from left to right, and `run_invariant`
takes what every such step keeps to a whole replay. Only the last step can report success, so until
then a replay goes from levels to levels.
-/

namespace DecisionTrace

/-! ## The questions a replay asks -/

namespace Formula

variable {f : Formula} {a : Assignment} {l : Literal}

theorem forces_iff : f.forces a l = true ↔ ∃ c ∈ f.clauses, c.status a = .unit l := by
  simp only [forces, List.any_eq_true, Bool.and_eq_true, decide_eq_true_eq]
  constructor
  · rintro ⟨c, hc, -, hs⟩
    exact ⟨c, hc, hs⟩
  · rintro ⟨c, hc, hs⟩
    exact ⟨c, hc, List.contains_iff_mem.2 (Clause.mem_of_status_unit hs).1, hs⟩

theorem hasPending_eq_false_iff : f.hasPending a = false ↔ f.Settled a := by
  simp only [hasPending, List.any_eq_false, Bool.and_eq_true, decide_eq_true_eq, not_and,
    Settled, Clause.Idle, Bool.not_eq_true']
  constructor
  · intro h c hc
    cases hs : c.satisfiedBy a with
    | true => exact Or.inl rfl
    | false => exact Or.inr (by have := h c hc hs; omega)
  · intro h c hc hs
    rcases h c hc with h' | h'
    · rw [hs] at h'
      cases h'
    · omega

end Formula

namespace Assignment

theorem lookup_replace (n : String) (v : Bool) (bs : List (String × Bool)) (m : String) :
    (replace n v bs).lookup m =
      if m = n then (bs.lookup n).map fun _ => v else bs.lookup m := by
  induction bs with
  | nil => simp [replace]
  | cons b bs ih =>
      obtain ⟨k, w⟩ := b
      simp only [replace, List.map_cons] at ih ⊢
      by_cases hk : k = n
      · subst hk
        by_cases hm : m = k
        · subst hm
          simp
        · have hbeq : (m == k) = false := by simpa using hm
          simp [List.lookup_cons, hbeq, ih, hm]
      · by_cases hm : m = n
        · subst hm
          have hbeq : (m == k) = false := by simpa using Ne.symm hk
          simp [List.lookup_cons, hk, hbeq, ih]
        · by_cases hmk : m = k
          · subst hmk
            simp [hk]
          · have hbeq : (m == k) = false := by simpa using hmk
            simp [List.lookup_cons, hk, hbeq, ih, hm]

theorem value?_set (a : Assignment) (n : String) (v : Bool) (m : String) :
    (a.set n v).value? m = if m = n then some v else a.value? m := by
  by_cases h : a.binds n = true
  · obtain ⟨w, hw⟩ := Option.isSome_iff_exists.1 h
    rw [value?_eq_lookup] at hw
    rw [set, if_pos h, value?_eq_lookup, value?_eq_lookup]
    show (replace n v a.bindings).lookup m = _
    rw [lookup_replace, hw, Option.map_some]
  · rw [set, if_neg h, value?_extend]
    by_cases hm : m = n
    · subst hm
      have hnone : a.value? m = none := binds_eq_false_iff.1 (by simpa using h)
      simp [hnone]
    · simp [hm]

theorem set_eq_extend {a : Assignment} {n : String} (h : a.binds n = false) (v : Bool) :
    a.set n v = a.extend n v := by
  simp [set, h]

theorem set_le {a m : Assignment} {n : String} {v : Bool} (h : a ≤ m) (hn : m.value? n = some v) :
    a.set n v ≤ m := by
  intro x w hx
  rw [value?_set] at hx
  by_cases hxn : x = n
  · subst hxn
    rw [if_pos rfl] at hx
    exact hx ▸ hn
  · rw [if_neg hxn] at hx
    exact h x w hx

end Assignment

namespace Replay

variable {f : Formula} {position : Nat} {below deeper levels : List Level} {level : Level}
  {action : Action} {e : Event} {r next final : Replay} {entries : List Entry}

/-! ## What a level admits -/

/-- The actions that the deepest level admits, with the state after each. -/
inductive Admits (f : Formula) (below : List Level) (level : Level) : Action → Replay → Prop
  | propagate {n : String} {v : Bool} (free : level.frame.binds n = false)
      (forced : f.forces level.frame ⟨n, !v⟩ = true) :
      Admits f below level (.propagate n v)
        (.running (below ++ [{ level with frame := level.frame.extend n v }]))
  | conflict {i : Nat} {c : Clause} (clause : f.clauses[i]? = some c)
      (falsified : c.status level.frame = .falsified) :
      Admits f below level (.conflict i) (.running (below ++ [level]))
  | allSatisfied (holds : f.satisfiedBy level.frame = true) :
      Admits f below level .allSatisfied (.succeeded level.frame)
  | attempt {n : String} (free : level.frame.binds n = false) (closed : level.openTry = none)
      (settled : f.Settled level.frame) :
      Admits f below level (.branch .attempt n true) (opening below level (some n) n true)
  | backtrack {n : String} (opened : level.openTry = some n) :
      Admits f below level (.branch .backtrack n false) (opening below level none n false)

theorem admits_of_act (h : act f position below level action = .ok r) :
    Admits f below level action r := by
  cases action with
  | propagate n v =>
      simp only [act] at h
      split at h
      · cases h
      · next hfree =>
        split at h
        · cases h
        · next hforced =>
          obtain rfl := Except.ok.inj h
          exact .propagate (by simpa using hfree) (by simpa using hforced)
  | conflict clause =>
      simp only [act] at h
      split at h
      · cases h
      · next c hc =>
        split at h
        · next hs =>
          obtain rfl := Except.ok.inj h
          split at hc
          · next hpos =>
            obtain ⟨i, rfl⟩ := Int.eq_ofNat_of_zero_le hpos
            exact .conflict hc hs
          · cases hc
        · cases h
  | allSatisfied =>
      simp only [act] at h
      split at h
      · next hs =>
        obtain rfl := Except.ok.inj h
        exact .allSatisfied hs
      · cases h
  | branch kind n v =>
      cases kind with
      | attempt =>
          simp only [act] at h
          split at h
          · cases h
          · next hfree =>
            split at h
            · cases h
            · next hv =>
              split at h
              · cases h
              · next hclosed =>
                split at h
                · cases h
                · next hpending =>
                  obtain rfl := Except.ok.inj h
                  obtain rfl : v = true := by simpa using hv
                  exact .attempt (by simpa using hfree) hclosed
                    (Formula.hasPending_eq_false_iff.1 (by simpa using hpending))
      | backtrack =>
          simp only [act] at h
          split at h
          · cases h
          · next hboth =>
            obtain rfl := Except.ok.inj h
            obtain ⟨hopen, rfl⟩ : level.openTry = some n ∧ v = false := by simpa using hboth
            exact .backtrack hopen

/-- An action is accepted exactly if the level admits it. -/
theorem act_eq_ok_iff :
    act f position below level action = .ok r ↔ Admits f below level action r := by
  constructor
  · exact admits_of_act
  · intro h
    cases h with
    | propagate free forced => simp [act, free, forced]
    | @conflict i c clause falsified => simp [act, clause, falsified]
    | allSatisfied holds => simp [act, holds]
    | attempt free closed settled =>
        simp [act, free, closed, Formula.hasPending_eq_false_iff.2 settled]
    | backtrack opened => simp [act, opened]

/-! ## Steps -/

theorem firstOpen?_eq_none_iff {d : Nat} :
    firstOpen? d levels = none ↔ ∀ level ∈ levels, level.openTry = none := by
  induction levels generalizing d with
  | nil => simp [firstOpen?]
  | cons level levels ih =>
      rw [firstOpen?, List.forall_mem_cons]
      cases h : level.openTry with
      | some name => simp
      | none => simp [ih]

theorem getElem?_length_append (below deeper : List Level) (level : Level) :
    (below ++ level :: deeper)[below.length]? = some level := by
  simp

theorem drop_length_append (below deeper : List Level) (level : Level) :
    (below ++ level :: deeper).drop (below.length + 1) = deeper := by
  simp

/-- The levels around the one at a depth. -/
theorem exists_append_of_getElem? {d : Nat} (h : levels[d]? = some level) :
    ∃ below deeper, levels = below ++ level :: deeper ∧ below.length = d := by
  obtain ⟨hlt, hget⟩ := List.getElem?_eq_some_iff.1 h
  refine ⟨levels.take d, levels.drop (d + 1), ?_, List.length_take_of_le (Nat.le_of_lt hlt)⟩
  rw [← hget, List.getElem_cons_drop, List.take_append_drop]

/-- An event is accepted exactly if its depth is that of a level, no deeper level has an open
attempt, and the level admits the action. -/
theorem step_event_eq_ok_iff :
    step f position (.event e) r = .ok next ↔
      ∃ below level deeper, r = .running (below ++ level :: deeper) ∧ e.depth = below.length ∧
        (∀ l ∈ deeper, l.openTry = none) ∧ Admits f below level e.action next := by
  constructor
  · intro h
    cases r with
    | succeeded frame => cases h
    | running levels =>
        simp only [step] at h
        split at h
        · cases h
        · next level hlevel =>
          split at h
          · cases h
          · next hclosed =>
            split at hlevel
            · next hpos =>
              obtain ⟨below, deeper, rfl, hlength⟩ := exists_append_of_getElem? hlevel
              rw [← hlength, drop_length_append] at hclosed
              rw [← hlength, List.take_left] at h
              refine ⟨below, level, deeper, rfl, ?_, firstOpen?_eq_none_iff.1 hclosed,
                admits_of_act h⟩
              rw [hlength]
              exact (Int.toNat_of_nonneg hpos).symm
            · cases hlevel
  · rintro ⟨below, level, deeper, rfl, hdepth, hclosed, hadmits⟩
    simp only [step, Entry.depth, hdepth, Int.toNat_natCast, Int.natCast_nonneg, if_true,
      getElem?_length_append, drop_length_append, firstOpen?_eq_none_iff.2 hclosed, List.take_left]
    exact act_eq_ok_iff.2 hadmits

/-- Something of an unknown kind is never accepted. -/
theorem step_foreign_ne_ok {kind : String} {d : Int} :
    step f position (.foreign kind d) r ≠ .ok next := by
  intro h
  cases r with
  | succeeded frame => cases h
  | running levels =>
      simp only [step] at h
      split at h
      · cases h
      · split at h
        · cases h
        · cases h

/-- Whatever is accepted is an event at the depth of a level that admits its action. -/
theorem exists_admits_of_step {entry : Entry}
    (h : step f position entry (.running levels) = .ok next) :
    ∃ action below level deeper, entry = .event ⟨action, below.length⟩ ∧
      levels = below ++ level :: deeper ∧ (∀ l ∈ deeper, l.openTry = none) ∧
      Admits f below level action next := by
  cases entry with
  | foreign kind d => exact absurd h step_foreign_ne_ok
  | event e =>
      obtain ⟨action, depth⟩ := e
      obtain ⟨below, level, deeper, hlevels, hdepth, hclosed, hadmits⟩ := step_event_eq_ok_iff.1 h
      obtain rfl : depth = below.length := hdepth
      exact ⟨action, below, level, deeper, rfl, Replay.running.inj hlevels, hclosed, hadmits⟩

/-- After an accepted conflict the deepest frame falsifies a clause, and the entry stands at its
depth. -/
theorem exists_falsified_of_step {entry : Entry}
    (h : step f position entry (.running levels) = .ok next) (hconflict : isConflict entry = true) :
    ∃ below level, next = .running (below ++ [level]) ∧ entry.depth = below.length ∧
      ∃ c ∈ f.clauses, c.status level.frame = .falsified := by
  obtain ⟨action, below, level, deeper, rfl, -, -, hadmits⟩ := exists_admits_of_step h
  cases hadmits with
  | @conflict i c clause falsified =>
      exact ⟨below, level, rfl, rfl, c, List.mem_of_getElem? clause, falsified⟩
  | _ => cases hconflict

/-! ## Runs -/

theorem run_cons_eq_ok_iff {entry : Entry} :
    run f position (entry :: entries) r = .ok final ↔
      ∃ next, step f position entry r = .ok next ∧
        run f (position + 1) entries next = .ok final := by
  rw [run]
  cases step f position entry r with
  | error e => simp
  | ok next => simp

theorem run_append (first second : List Entry) :
    run f position (first ++ second) r = .ok final ↔
      ∃ next, run f position first r = .ok next ∧
        run f (position + first.length) second next = .ok final := by
  induction first generalizing position r with
  | nil => simp [run]
  | cons entry entries ih =>
      rw [List.cons_append, run_cons_eq_ok_iff, List.length_cons,
        show position + (entries.length + 1) = position + 1 + entries.length from by omega]
      constructor
      · rintro ⟨mid, hstep, hrun⟩
        obtain ⟨next, hfirst, hsecond⟩ := ih.1 hrun
        exact ⟨next, run_cons_eq_ok_iff.2 ⟨mid, hstep, hfirst⟩, hsecond⟩
      · rintro ⟨next, hfirst, hsecond⟩
        obtain ⟨mid, hstep, hrun⟩ := run_cons_eq_ok_iff.1 hfirst
        exact ⟨mid, hstep, ih.2 ⟨next, hrun, hsecond⟩⟩

/-- Nothing is accepted after success. -/
theorem run_cons_succeeded_ne_ok {entry : Entry} {frame : Assignment} :
    run f position (entry :: entries) (.succeeded frame) ≠ .ok final := by
  intro h
  obtain ⟨next, hstep, -⟩ := run_cons_eq_ok_iff.1 h
  cases hstep

/-- A replay that goes on after a cut is running at the cut. -/
theorem exists_running_of_cut {entry : Entry} {first rest : List Entry}
    (h : run f position (first ++ entry :: rest) r = .ok final) :
    ∃ levels next, run f position first r = .ok (.running levels) ∧
      step f (position + first.length) entry (.running levels) = .ok next ∧
      run f (position + first.length + 1) rest next = .ok final := by
  obtain ⟨mid, hfirst, hrest⟩ := (run_append first (entry :: rest)).1 h
  cases mid with
  | succeeded frame => exact absurd hrest run_cons_succeeded_ne_ok
  | running levels =>
      obtain ⟨next, hstep, hend⟩ := run_cons_eq_ok_iff.1 hrest
      exact ⟨levels, next, hfirst, hstep, hend⟩

/-- The last step of a replay. -/
theorem exists_last_step {entry : Entry} (hrun : run f position entries r = .ok final)
    (hlast : entries.getLast? = some entry) :
    ∃ first levels, entries = first ++ [entry] ∧ run f position first r = .ok (.running levels) ∧
      step f (position + first.length) entry (.running levels) = .ok final := by
  obtain ⟨first, rfl⟩ := List.getLast?_eq_some_iff.1 hlast
  obtain ⟨levels, next, hfirst, hstep, hnil⟩ := exists_running_of_cut hrun
  obtain rfl : next = final := by simpa [run] using hnil
  exact ⟨first, levels, rfl, hfirst, hstep⟩

theorem exists_falsified_of_getLast? {entry : Entry} (hrun : run f position entries r = .ok final)
    (hlast : entries.getLast? = some entry) (hconflict : isConflict entry = true) :
    ∃ below level, final = .running (below ++ [level]) ∧ entry.depth = below.length ∧
      ∃ c ∈ f.clauses, c.status level.frame = .falsified := by
  obtain ⟨first, levels, -, -, hstep⟩ := exists_last_step hrun hlast
  exact exists_falsified_of_step hstep hconflict

/-- What holds of the levels at the beginning and is kept by every step between levels holds at the
end of a replay. It may speak of the entries that are still to come. -/
theorem run_invariant {P : Nat → List Entry → List Level → Prop}
    (hstep : ∀ position entry entries levels levels',
      step f position entry (.running levels) = .ok (.running levels') →
        P position (entry :: entries) levels → P (position + 1) entries levels')
    (hrun : run f position entries (.running levels) = .ok (.running levels'))
    (h : P position entries levels) : P (position + entries.length) [] levels' := by
  induction entries generalizing position levels with
  | nil =>
      obtain rfl : levels = levels' := by simpa [run] using hrun
      exact h
  | cons entry entries ih =>
      obtain ⟨next, hnext, hrest⟩ := run_cons_eq_ok_iff.1 hrun
      cases next with
      | succeeded frame =>
          cases entries with
          | nil => cases hrest
          | cons other rest => exact absurd hrest run_cons_succeeded_ne_ok
      | running mid =>
          rw [List.length_cons, Nat.add_comm entries.length, ← Nat.add_assoc]
          exact ih hrest (hstep _ _ _ _ _ hnext h)

/-! ## The end of a replay -/

theorem insertSorted_ne_nil (name : String) (names : List String) :
    insertSorted name names ≠ [] := by
  cases names with
  | nil => simp [insertSorted]
  | cons n ns =>
      rw [insertSorted]
      split <;> simp

theorem openNames_eq_nil_iff : openNames levels = [] ↔ ∀ level ∈ levels, level.openTry = none := by
  rw [openNames, ← List.filterMap_eq_nil_iff]
  cases levels.filterMap Level.openTry with
  | nil => simp
  | cons name names => simp [insertSorted_ne_nil]

/-- A refutation is accepted exactly if its replay is still running, its last entry is a conflict
and no attempt is open. -/
theorem check_unsatisfiable_eq_none_iff :
    check f .unsatisfiable entries = none ↔
      ∃ levels, run f 0 entries start = .ok (.running levels) ∧
        entries.getLast?.any isConflict = true ∧ ∀ level ∈ levels, level.openTry = none := by
  rw [check]
  cases run f 0 entries start with
  | error e => simp
  | ok final =>
      cases final with
      | succeeded frame => simp [objection?]
      | running levels =>
          have hnames : openNames levels = [] ↔ ∀ level ∈ levels, level.openTry = none :=
            openNames_eq_nil_iff
          cases hlast : entries.getLast?.any isConflict with
          | false => simp [objection?, hlast]
          | true =>
              cases hopen : openNames levels with
              | nil => simpa [objection?, hlast, hopen] using hnames.1 hopen
              | cons name names =>
                  rw [hopen] at hnames
                  simpa [objection?, hlast, hopen] using hnames

end Replay

end DecisionTrace
