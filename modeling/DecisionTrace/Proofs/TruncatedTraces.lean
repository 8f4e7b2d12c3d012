import DecisionTrace.Proofs.FailedBranches
import DecisionTrace.Proofs.Verdicts

/-!
# Truncated and relabelled traces

A trace is accepted for one verdict only, and only as a whole. What is left of the trace of a search
after a cut is rejected for either verdict, and the whole trace is rejected for the verdict that the
search did not reach (`Formula.rejects_of_cut`). In both cases every event is accepted and only the
verdict is not, so the reason has words that show nothing of the trace but names, and the check
reports them.

Success is the last thing that a replay accepts, so it has not been reported before the cut. A cut
right after a conflict leaves an attempt open, because the entry behind the cut is then a backtrack
(`Alternates.isBacktrack_eq`), and a backtrack is accepted only where an attempt is open.
-/

namespace DecisionTrace

namespace Replay

variable {f : Formula} {position : Nat} {first rest : List Entry} {entry : Entry}
  {levels : List Level} {r next final : Replay} {entries : List Entry} {verdict : Verdict}

/-! ## Rejections in words -/

/-- The check does not accept the trace and reports why. -/
def Rejects (f : Formula) (verdict : Verdict) (entries : List Entry) : Prop :=
  ∃ text, report f verdict entries = .ok (some text) ∧ text ≠ ""

/-- What speaks against a verdict after the whole trace has been replayed can be reported. -/
theorem rejects_of_check_ne_none (hrun : run f 0 entries start = .ok final)
    (h : check f verdict entries ≠ none) : Rejects f verdict entries := by
  obtain ⟨reason, hcheck⟩ := Option.ne_none_iff_exists'.1 h
  have hobjection : objection? f entries verdict final = some reason := by
    rwa [check, hrun] at hcheck
  have hshows := showsOnly_of_objection hobjection
  obtain ⟨text, hmessage⟩ := Rejection.exists_message hshows.noEntry
  have hwritable : reason.Writable := fun i hi => absurd (hshows.subset hi) List.not_mem_nil
  exact ⟨text, (report_eq_ok_iff hcheck).2 ⟨text, hmessage, hwritable, rfl⟩,
    Rejection.ne_empty_of_message hmessage⟩

/-! ## What a cut leaves -/

/-- What comes after a cut is a backtrack exactly if a conflict comes right before it. -/
theorem Alternates.isBacktrack_eq {b : Bool} (h : Alternates b (first ++ entry :: rest)) :
    isBacktrack entry = (first.getLast?.map isConflict).getD b := by
  induction first generalizing b with
  | nil => exact h.1
  | cons e first ih =>
      rw [ih h.2, List.getLast?_cons]
      cases first.getLast? with
      | none => rfl
      | some last => rfl

/-- A backtrack is accepted only where an attempt is open. -/
theorem exists_open_of_backtrack (h : step f position entry (.running levels) = .ok next)
    (hback : isBacktrack entry = true) : ∃ level ∈ levels, level.openTry ≠ none := by
  obtain ⟨action, below, level, deeper, rfl, rfl, -, hadmits⟩ := exists_admits_of_step h
  cases hadmits with
  | backtrack opened => exact ⟨level, by simp, by simp [opened]⟩
  | _ => cases hback

/-- A trace whose backtracks go with its conflicts is rejected after a cut. -/
theorem rejects_of_alternates (hrun : run f 0 (first ++ entry :: rest) start = .ok final)
    (halt : Alternates false (first ++ entry :: rest)) (verdict : Verdict) :
    Rejects f verdict first := by
  obtain ⟨levels, next, hfirst, hstep, -⟩ := exists_running_of_cut hrun
  refine rejects_of_check_ne_none hfirst ?_
  intro hcheck
  cases verdict with
  | satisfiable assignment snapshot =>
      rw [check, hfirst] at hcheck
      cases hcheck
  | unsatisfiable =>
      -- the cut is after a conflict, so the entry behind it asks for an attempt that is open
      obtain ⟨levels', hfirst', hlast, hclosed⟩ := check_unsatisfiable_eq_none_iff.1 hcheck
      obtain rfl : levels = levels' := by
        rw [hfirst] at hfirst'
        cases hfirst'
        rfl
      have hback : isBacktrack entry = true := by
        rw [halt.isBacktrack_eq]
        cases hget : first.getLast? with
        | none =>
            rw [hget] at hlast
            cases hlast
        | some last =>
            rw [hget] at hlast
            exact hlast
      obtain ⟨level, hlevel, hopen⟩ := exists_open_of_backtrack hstep hback
      exact hopen (hclosed level hlevel)

end Replay

/-! ## The traces of searches -/

namespace Formula

open Replay

theorem isSatisfiable_solve (f : Formula) :
    f.solve.verdict.isSatisfiable = (search f f.names 0 ∅).model.isSome := by
  rw [solve]
  cases (search f f.names 0 ∅).model <;> rfl

/-- The replay of a search succeeds exactly if the search has found a model. -/
theorem run_solve (f : Formula) :
    ∃ r, Closes [] (search f f.names 0 ∅).model r ∧
      run f 0 (f.solve.trace.map Entry.event) start = .ok r := by
  obtain ⟨r, hcloses, hrun⟩ := run_explored (explored_solve f) (List.length_nil (α := Level))
  exact ⟨r, hcloses, hrun 0⟩

/-- The trace of a search is rejected for the other verdict. -/
theorem rejects_of_opposite {f : Formula} {verdict : Verdict}
    (h : verdict.isSatisfiable ≠ f.solve.verdict.isSatisfiable) :
    Rejects f verdict (f.solve.trace.map Entry.event) := by
  obtain ⟨r, hcloses, hrun⟩ := run_solve f
  refine rejects_of_check_ne_none hrun ?_
  rw [isSatisfiable_solve] at h
  rw [check, hrun]
  cases hd : (search f f.names 0 ∅).model with
  | none =>
      rw [hd] at h hcloses
      obtain ⟨levels, rfl, -⟩ := hcloses
      cases verdict with
      | satisfiable assignment snapshot => simp [objection?]
      | unsatisfiable => exact absurd rfl h
  | some b =>
      rw [hd] at h hcloses
      obtain rfl := hcloses
      cases verdict with
      | satisfiable assignment snapshot => exact absurd rfl h
      | unsatisfiable => simp [objection?]

/-- The trace of a search is rejected for either verdict once its end is cut off, and for the other
verdict as a whole. -/
theorem rejects_of_cut (f : Formula) :
    (∀ first, first <+: f.solve.trace → first ≠ f.solve.trace →
      ∀ verdict, Rejects f verdict (first.map Entry.event)) ∧
    ∀ verdict : Verdict, verdict.isSatisfiable ≠ f.solve.verdict.isSatisfiable →
      Rejects f verdict (f.solve.trace.map Entry.event) := by
  refine ⟨?_, fun verdict => rejects_of_opposite⟩
  rintro first ⟨rest, htrace⟩ hne verdict
  obtain ⟨r, -, hrun⟩ := run_solve f
  have halt := alternates_solve f
  cases rest with
  | nil => exact absurd (by simpa using htrace) hne
  | cons e rest =>
      rw [← htrace, List.map_append, List.map_cons] at hrun halt
      exact rejects_of_alternates hrun halt verdict

/-- A cut right after the first conflict, and the whole trace with a model that is none. -/
theorem rejects_cut_allClauses :
    ((allClauses.solve.trace.take 3 <+: allClauses.solve.trace ∧
        allClauses.solve.trace.take 3 ≠ allClauses.solve.trace) ∧
      (Verdict.satisfiable ∅ ∅).isSatisfiable ≠ allClauses.solve.verdict.isSatisfiable) ∧
      Rejects allClauses .unsatisfiable ((allClauses.solve.trace.take 3).map Entry.event) ∧
      Rejects allClauses (.satisfiable ∅ ∅) (allClauses.solve.trace.map Entry.event) := by
  have hcut := rejects_of_cut allClauses
  have hshort := List.take_prefix 3 allClauses.solve.trace
  have hne : allClauses.solve.trace.take 3 ≠ allClauses.solve.trace := by decide +kernel
  have hverdict : (Verdict.satisfiable ∅ ∅).isSatisfiable ≠
      allClauses.solve.verdict.isSatisfiable := by
    decide +kernel
  exact ⟨⟨⟨hshort, hne⟩, hverdict⟩, hcut.1 _ hshort hne _, hcut.2 _ hverdict⟩

end Formula

end DecisionTrace
