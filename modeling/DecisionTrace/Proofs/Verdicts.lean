import DecisionTrace.Proofs.ReplaySteps

/-!
# Whether a check comes to a verdict

A trace may come from anywhere, and still a check should either accept it or say why not. All
reasons but one can be put into words for every trace (`Rejection.message_eq_error_iff`): an entry
after success is shown by its line, and an entry of an unknown kind, or one whose depth or clause is
too large for a line, has none. So a check comes to no verdict exactly where such an entry follows a
success that the replay has accepted, and where the reason shows a number with more digits than a
text may have (`Replay.reachesVerdict_iff`). An entry of an unknown kind is never part of an
accepted trace, wherever it stands.

The first rejected step decides the reason (`Replay.run_eq_error_iff`). Until success a step is
rejected in words that show nothing of the trace but names and the numbers of the rejected entry
(`Replay.showsOnly_of_step`).
-/

namespace DecisionTrace

/-! ## Words -/

/-- The numbers that an entry names, the depth among them. -/
def Entry.numbers : Entry → List Int
  | .event e => e.depth :: e.action.numbers
  | .foreign _ depth => [depth]

namespace Rejection

variable {reason : Rejection} {text : String} {e : RenderError}

/-- Only an entry without a line leaves a rejection without words. -/
theorem message_eq_error_iff : reason.message = .error e ↔
    ∃ position entry, reason = .afterSuccess position entry ∧ entry.render = .error e := by
  cases reason with
  | afterSuccess position entry =>
      rw [message]
      cases hrender : entry.render with
      | ok line => simp [hrender]
      | error e' => simp [hrender]
  | _ => simp [message]

theorem ne_empty_of_message (h : reason.message = .ok text) : text ≠ "" := by
  cases reason with
  | afterSuccess position entry =>
      rw [message] at h
      cases hrender : entry.render with
      | ok line =>
          rw [hrender] at h
          cases h
          simp
      | error e' =>
          rw [hrender] at h
          cases h
  | _ =>
      cases h
      simp

/-- No number that the words show is too long to be written. -/
def Writable (reason : Rejection) : Prop :=
  ∀ i ∈ reason.numbers, Text.exceedsDigits i = false

/-- The entry that the words show by its line. -/
def entry? : Rejection → Option Entry
  | .afterSuccess _ entry => some entry
  | _ => none

theorem exists_message (h : reason.entry? = none) : ∃ text, reason.message = .ok text := by
  cases reason with
  | afterSuccess position entry => cases h
  | _ => exact ⟨_, rfl⟩

/-- A rejection shows no entry, and no number of a trace but the given ones. -/
structure ShowsOnly (numbers : List Int) (reason : Rejection) : Prop where
  noEntry : reason.entry? = none
  subset : reason.numbers ⊆ numbers

namespace ShowsOnly

variable {numbers more : List Int}

theorem of_numbers_eq_nil (hentry : reason.entry? = none) (h : reason.numbers = []) :
    reason.ShowsOnly numbers :=
  ⟨hentry, h ▸ List.nil_subset _⟩

theorem mono (h : reason.ShowsOnly numbers) (hsub : numbers ⊆ more) : reason.ShowsOnly more :=
  ⟨h.noEntry, List.Subset.trans h.subset hsub⟩

end ShowsOnly

end Rejection

namespace Replay

variable {f : Formula} {position : Nat} {below levels : List Level} {level : Level}
  {action : Action} {entry : Entry} {r final : Replay} {entries : List Entry} {reason : Rejection}
  {verdict : Verdict}

/-! ## The reasons of a replay -/

/-- Before success, nothing of a rejected entry is shown but names and its own numbers. -/
theorem showsOnly_of_act (h : act f position below level action = .error reason) :
    reason.ShowsOnly action.numbers := by
  cases action with
  | propagate name value =>
      simp only [act] at h
      split at h
      · cases h
        exact .of_numbers_eq_nil rfl rfl
      · split at h
        · cases h
          exact .of_numbers_eq_nil rfl rfl
        · cases h
  | conflict clause =>
      simp only [act] at h
      split at h
      · cases h
        exact ⟨rfl, List.Subset.refl _⟩
      · split at h
        · cases h
        · cases h
          exact ⟨rfl, List.Subset.refl _⟩
  | allSatisfied =>
      simp only [act] at h
      split at h
      · cases h
      · cases h
        exact .of_numbers_eq_nil rfl rfl
  | branch kind name value =>
      cases kind with
      | attempt =>
          simp only [act] at h
          split at h
          · cases h
            exact .of_numbers_eq_nil rfl rfl
          · split at h
            · cases h
              exact .of_numbers_eq_nil rfl rfl
            · split at h
              · cases h
                exact .of_numbers_eq_nil rfl rfl
              · split at h
                · cases h
                  exact .of_numbers_eq_nil rfl rfl
                · cases h
      | backtrack =>
          simp only [act] at h
          split at h
          · cases h
            exact .of_numbers_eq_nil rfl rfl
          · cases h

theorem showsOnly_of_step (h : step f position entry (.running levels) = .error reason) :
    reason.ShowsOnly entry.numbers := by
  simp only [step] at h
  split at h
  · cases h
    refine ⟨rfl, ?_⟩
    cases entry with
    | event e => exact List.cons_subset_cons _ (List.nil_subset _)
    | foreign kind depth => exact List.Subset.refl _
  · split at h
    · cases h
      exact .of_numbers_eq_nil rfl rfl
    · cases entry with
      | foreign kind depth =>
          cases h
          exact .of_numbers_eq_nil rfl rfl
      | event e => exact (showsOnly_of_act h).mono (List.subset_cons_self _ _)

/-- What speaks against a verdict after the whole trace has been replayed shows nothing of it but
names. -/
theorem showsOnly_of_objection (h : objection? f entries verdict r = some reason) :
    reason.ShowsOnly [] := by
  unfold objection? at h
  split at h
  · cases h
    exact .of_numbers_eq_nil rfl rfl
  · split at h
    · cases h
      exact .of_numbers_eq_nil rfl rfl
    · split at h
      · cases h
      · cases h
        exact .of_numbers_eq_nil rfl rfl
  · cases h
    exact .of_numbers_eq_nil rfl rfl
  · split at h
    · cases h
      exact .of_numbers_eq_nil rfl rfl
    · split at h
      · cases h
        exact .of_numbers_eq_nil rfl rfl
      · cases h

/-- A replay fails with the first step that is rejected. -/
theorem run_eq_error_iff : run f position entries r = .error reason ↔
    ∃ before entry after mid, entries = before ++ entry :: after ∧
      run f position before r = .ok mid ∧
      step f (position + before.length) entry mid = .error reason := by
  constructor
  · intro h
    induction entries generalizing position r with
    | nil => cases h
    | cons entry entries ih =>
        rw [run] at h
        cases hstep : step f position entry r with
        | error e =>
            rw [hstep] at h
            obtain rfl := Except.error.inj h
            exact ⟨[], entry, entries, r, rfl, rfl, hstep⟩
        | ok next =>
            rw [hstep] at h
            obtain ⟨before, bad, after, mid, rfl, hbefore, hbad⟩ := ih h
            refine ⟨entry :: before, bad, after, mid, rfl,
              run_cons_eq_ok_iff.2 ⟨next, hstep, hbefore⟩, ?_⟩
            rwa [List.length_cons, Nat.add_comm before.length, ← Nat.add_assoc]
  · rintro ⟨before, entry, after, mid, rfl, hbefore, hstep⟩
    induction before generalizing position r with
    | nil =>
        obtain rfl := Except.ok.inj hbefore
        rw [List.nil_append, run]
        rw [List.length_nil, Nat.add_zero] at hstep
        rw [hstep]
    | cons first before ih =>
        obtain ⟨next, hfirst, hrest⟩ := run_cons_eq_ok_iff.1 hbefore
        rw [List.cons_append, run, hfirst]
        refine ih hrest ?_
        rwa [List.length_cons, Nat.add_comm before.length, ← Nat.add_assoc] at hstep

/-- An entry of an unknown kind is in no trace that is replayed to its end. -/
theorem foreign_not_mem_of_run {kind : String} {depth : Int}
    (h : run f position entries r = .ok final) : .foreign kind depth ∉ entries := by
  intro hmem
  obtain ⟨before, after, rfl⟩ := List.append_of_mem hmem
  obtain ⟨mid, -, hrest⟩ := (run_append before _).1 h
  obtain ⟨next, hstep, -⟩ := run_cons_eq_ok_iff.1 hrest
  exact step_foreign_ne_ok hstep

/-! ## The reason of a check -/

/-- An entry of a trace comes after a success that the replay has accepted. -/
def Overruns (f : Formula) (entries : List Entry) (entry : Entry) : Prop :=
  ∃ before after frame, entries = before ++ entry :: after ∧
    run f 0 before start = .ok (.succeeded frame)

/-- The reason is about an entry after success exactly if there is one. -/
theorem check_eq_afterSuccess_iff :
    (∃ position, check f verdict entries = some (.afterSuccess position entry)) ↔
      Overruns f entries entry := by
  constructor
  · rintro ⟨position, h⟩
    rw [check] at h
    cases hrun : run f 0 entries start with
    | ok final =>
        rw [hrun] at h
        cases (showsOnly_of_objection h).noEntry
    | error reason =>
        rw [hrun] at h
        obtain rfl := Option.some.inj h
        obtain ⟨before, bad, after, mid, rfl, hbefore, hstep⟩ := run_eq_error_iff.1 hrun
        cases mid with
        | running levels => cases (showsOnly_of_step hstep).noEntry
        | succeeded frame =>
            cases hstep
            exact ⟨before, after, frame, rfl, hbefore⟩
  · rintro ⟨before, after, frame, rfl, hbefore⟩
    have hrun : run f 0 (before ++ entry :: after) start =
        .error (.afterSuccess (0 + before.length) entry) :=
      run_eq_error_iff.2 ⟨before, entry, after, _, rfl, hbefore, rfl⟩
    exact ⟨_, by rw [check, hrun]⟩

/-- Whatever the reason shows as a number is a number of the trace. -/
theorem exists_entry_of_check {i : Int} (h : check f verdict entries = some reason)
    (hi : i ∈ reason.numbers) : ∃ entry ∈ entries, i ∈ entry.numbers := by
  rw [check] at h
  cases hrun : run f 0 entries start with
  | ok final =>
      rw [hrun] at h
      cases (showsOnly_of_objection h).subset hi
  | error reason' =>
      rw [hrun] at h
      obtain rfl := Option.some.inj h
      obtain ⟨before, bad, after, mid, rfl, -, hstep⟩ := run_eq_error_iff.1 hrun
      refine ⟨bad, by simp, ?_⟩
      cases mid with
      | running levels => exact (showsOnly_of_step hstep).subset hi
      | succeeded frame =>
          cases hstep
          cases hi

theorem check_ne_none_of_foreign {kind : String} {depth : Int}
    (h : .foreign kind depth ∈ entries) : check f verdict entries ≠ none := by
  rw [check]
  cases hrun : run f 0 entries start with
  | error reason => simp
  | ok final => exact absurd h (foreign_not_mem_of_run hrun)

/-! ## The report of a check -/

/-- The check ends with acceptance or with a reason that has words, and it does not accept a trace
with an entry of an unknown kind. -/
def ReachesVerdict (f : Formula) (verdict : Verdict) (entries : List Entry) : Prop :=
  ∃ failure, report f verdict entries = .ok failure ∧ failure ≠ some "" ∧
    ∀ kind depth, .foreign kind depth ∈ entries → failure ≠ none

theorem report_of_accepted (h : check f verdict entries = none) :
    report f verdict entries = .ok none := by
  rw [report, h]

/-- A rejection is told exactly if it has words and its numbers can be written. -/
theorem report_eq_ok_iff {failure : Option String} (h : check f verdict entries = some reason) :
    report f verdict entries = .ok failure ↔
      ∃ text, reason.message = .ok text ∧ reason.Writable ∧ failure = some text := by
  have hwritable : reason.Writable ↔ ¬ reason.numbers.any Text.exceedsDigits = true := by
    simp [Rejection.Writable]
  simp only [report, h]
  cases reason.message with
  | error e => simp
  | ok text =>
      simp only [hwritable, Except.ok.injEq, exists_eq_left']
      split
      · next hlong => simp [hlong]
      · next hshort =>
        rw [Except.ok.injEq, eq_comm, and_iff_right hshort]

theorem exists_line_of_reachesVerdict (h : ReachesVerdict f verdict entries)
    (hover : Overruns f entries entry) : ∃ line, entry.render = .ok line := by
  obtain ⟨failure, hreport, -, -⟩ := h
  obtain ⟨position, hcheck⟩ := check_eq_afterSuccess_iff.2 hover
  obtain ⟨text, hmessage, -, -⟩ := (report_eq_ok_iff hcheck).1 hreport
  cases hrender : entry.render with
  | ok line => exact ⟨line, rfl⟩
  | error e =>
      have herror := Rejection.message_eq_error_iff.2 ⟨position, entry, rfl, hrender⟩
      cases hmessage.symm.trans herror

theorem exists_message_of_check (hlines : ∀ entry, Overruns f entries entry →
    ∃ line, entry.render = .ok line) (hcheck : check f verdict entries = some reason) :
    ∃ text, reason.message = .ok text := by
  cases hmessage : reason.message with
  | ok text => exact ⟨text, rfl⟩
  | error e =>
      obtain ⟨position, entry, rfl, hrender⟩ := Rejection.message_eq_error_iff.1 hmessage
      obtain ⟨line, hline⟩ := hlines entry (check_eq_afterSuccess_iff.1 ⟨position, hcheck⟩)
      cases hline.symm.trans hrender

theorem reachesVerdict_of_writable
    (hlines : ∀ entry, Overruns f entries entry → ∃ line, entry.render = .ok line)
    (hwritable : ∀ reason, check f verdict entries = some reason → reason.Writable) :
    ReachesVerdict f verdict entries := by
  cases hcheck : check f verdict entries with
  | none =>
      refine ⟨none, report_of_accepted hcheck, nofun, ?_⟩
      intro kind depth hmem
      exact absurd hcheck (check_ne_none_of_foreign hmem)
  | some reason =>
      obtain ⟨text, hmessage⟩ := exists_message_of_check hlines hcheck
      have hreport := (report_eq_ok_iff hcheck).2 ⟨text, hmessage, hwritable _ hcheck, rfl⟩
      refine ⟨some text, hreport, ?_, nofun⟩
      intro hempty
      exact Rejection.ne_empty_of_message hmessage (Option.some.inj hempty)

/-- A check comes to no verdict exactly where an entry without a line follows an accepted success,
or where the reason shows a number that is too long to be written; and such a number is one of the
trace. -/
theorem reachesVerdict_iff (f : Formula) (verdict : Verdict) (entries : List Entry) :
    (ReachesVerdict f verdict entries ↔
      (∀ entry, Overruns f entries entry → ∃ line, entry.render = .ok line) ∧
        ∀ reason, check f verdict entries = some reason → reason.Writable) ∧
    ((∀ entry ∈ entries, ∀ i ∈ entry.numbers, Text.exceedsDigits i = false) →
      ∀ reason, check f verdict entries = some reason → reason.Writable) := by
  refine ⟨⟨?_, ?_⟩, ?_⟩
  · intro h
    refine ⟨fun entry => exists_line_of_reachesVerdict h, ?_⟩
    intro reason hcheck
    obtain ⟨failure, hreport, -, -⟩ := h
    obtain ⟨text, -, hwritable, -⟩ := (report_eq_ok_iff hcheck).1 hreport
    exact hwritable
  · rintro ⟨hlines, hwritable⟩
    exact reachesVerdict_of_writable hlines hwritable
  · intro hdigits reason hcheck i hi
    obtain ⟨entry, hentry, hmem⟩ := exists_entry_of_check hcheck hi
    exact hdigits entry hentry i hmem

/-- Something of an unknown kind, alone and after success, against the formula without clauses. -/
theorem reachesVerdict_foreign :
    (∀ entry ∈ [Entry.foreign "Mystery" 0], ∀ i ∈ entry.numbers, Text.exceedsDigits i = false) ∧
      ReachesVerdict ⟨[]⟩ (.satisfiable ∅ ∅) [.foreign "Mystery" 0] ∧
      ¬ ReachesVerdict ⟨[]⟩ (.satisfiable ∅ ∅)
        [.event ⟨.allSatisfied, 0⟩, .foreign "Mystery" 0] := by
  have hdigits : ∀ entry ∈ [Entry.foreign "Mystery" 0], ∀ i ∈ entry.numbers,
      Text.exceedsDigits i = false := by
    decide +kernel
  obtain ⟨hiff, hwritable⟩ := reachesVerdict_iff ⟨[]⟩ (.satisfiable ∅ ∅) [.foreign "Mystery" 0]
  refine ⟨hdigits, hiff.2 ⟨?_, hwritable hdigits⟩, ?_⟩
  · -- the only entry comes first, so nothing has succeeded before it
    rintro entry ⟨before, after, frame, hentries, hrun⟩
    obtain ⟨rfl, -⟩ | ⟨-, hnil⟩ := List.append_eq_singleton_iff.1 hentries.symm
    · cases hrun
    · cases hnil
  · rw [(reachesVerdict_iff _ _ _).1]
    rintro ⟨hlines, -⟩
    obtain ⟨line, hline⟩ := hlines (.foreign "Mystery" 0)
      ⟨[.event ⟨.allSatisfied, 0⟩], [], ∅, rfl, rfl⟩
    cases hline

/-- An entry of an unknown kind after success leaves a check without a verdict. -/
theorem not_forall_reachesVerdict :
    ¬ ∀ (f : Formula) (verdict : Verdict) (entries : List Entry),
      ReachesVerdict f verdict entries := by
  intro h
  obtain ⟨failure, hreport, -, -⟩ :=
    h ⟨[]⟩ (.satisfiable ∅ ∅) [.event ⟨.allSatisfied, 0⟩, .foreign "Mystery" 0]
  have hstop : report ⟨[]⟩ (.satisfiable ∅ ∅) [.event ⟨.allSatisfied, 0⟩, .foreign "Mystery" 0] =
      .error (.noLine (.unknownKind "Mystery" 0)) := by
    decide +kernel
  rw [hstop] at hreport
  cases hreport

end Replay

end DecisionTrace
