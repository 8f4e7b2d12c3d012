import DecisionTrace.Proofs.GreatestModel
import DecisionTrace.Proofs.ReplaySteps

/-!
# Every search is accepted

The replay of a search follows it frame by frame: while the search is in a frame, the deepest level
of the replay holds exactly the assignment of that frame, and the levels below it are those of the
frames that wait. A part of the search that finds a model ends the replay in its snapshot. A part
that finds none leaves the waiting levels as they were and closes all others (`Replay.Closes`).

`run_explored` is this simulation, by induction over the tree of the search, and
`checkOutcome_solve` is the statement about whole searches.
-/

namespace DecisionTrace

namespace Replay

variable {f : Formula} {order : List String} {depth : Nat} {a b : Assignment} {d : Finding}
  {below deeper : List Level} {level : Level} {next : Replay}

/-- Where a replay stands after a part of a search that began on top of the given levels. -/
def Closes (below : List Level) : Option Assignment → Replay → Prop
  | some b, r => r = .succeeded b
  | none, r => ∃ rest, r = .running (below ++ rest) ∧ ∀ level ∈ rest, level.openTry = none

/-- An admitted action is accepted at the depth of its level when nothing deeper is open. -/
theorem step_of_admits {action : Action} (h : Admits f below level action next)
    (hclosed : ∀ l ∈ deeper, l.openTry = none) (position : Nat) :
    step f position (.event ⟨action, below.length⟩) (.running (below ++ level :: deeper)) =
      .ok next :=
  step_event_eq_ok_iff.2 ⟨below, level, deeper, rfl, rfl, hclosed, h⟩

/-- The events of a chain of forced literals move the frame of the deepest level along the chain. -/
theorem run_derives {ls : List Literal} (h : f.Derives a ls b) (position : Nat) :
    run f position ((ls.map (Literal.propagation below.length)).map Entry.event)
      (.running (below ++ [{ frame := a }])) = .ok (.running (below ++ [{ frame := b }])) := by
  induction h generalizing position with
  | refl a => rfl
  | @step a b c l ls mem unit _ ih =>
      rw [List.map_cons, List.map_cons, run_cons_eq_ok_iff]
      refine ⟨_, step_of_admits ?_ (by simp) position, ih (position + 1)⟩
      have hforced : f.forces a ⟨l.name, !l.satisfyingValue⟩ = true := by
        rw [Literal.satisfyingValue, Bool.not_not]
        exact Formula.forces_iff.2 ⟨c, mem, unit⟩
      exact .propagate (Clause.mem_of_status_unit unit).2 hforced

/-- A branch of either kind opens a level with the extended frame on top of its own. -/
theorem opening_eq {v : String} (hfree : level.frame.binds v = false) (openTry : Option String)
    (value : Bool) :
    opening below level openTry v value =
      .running ((below ++ [{ level with openTry }]) ++
        [{ frame := level.frame.extend v value }]) := by
  rw [opening, Assignment.set_eq_extend hfree, List.append_assoc, List.singleton_append]

/-- The replay of a part of a search is accepted and stands where that part has come to. -/
theorem run_explored (h : Explored f order depth a d) (hlen : below.length = depth) :
    ∃ r, Closes below d.model r ∧ ∀ position,
      run f position (d.events.map Entry.event) (.running (below ++ [{ frame := a }])) = .ok r := by
  induction h generalizing below with
  | @failed depth i a b ls c chain clause falsified =>
      subst hlen
      refine ⟨.running (below ++ [{ frame := b }]), ⟨[{ frame := b }], rfl, by simp⟩, ?_⟩
      intro position
      simp only [Finding.leaf, Propagation.failed, List.append_nil, List.map_append]
      rw [run_append]
      refine ⟨_, run_derives chain position, ?_⟩
      rw [List.map_cons, run_cons_eq_ok_iff]
      exact ⟨_, step_of_admits (.conflict clause falsified) (by simp) _, rfl⟩
  | @satisfied depth a b ls chain settled holds =>
      subst hlen
      refine ⟨.succeeded b, rfl, ?_⟩
      intro position
      simp only [Finding.leaf, Propagation.settled, List.map_append]
      rw [run_append]
      refine ⟨_, run_derives chain position, ?_⟩
      rw [List.map_cons, run_cons_eq_ok_iff]
      exact ⟨_, step_of_admits (.allSatisfied holds) (by simp) _, rfl⟩
  | @found depth a b m ls v first chain settled undecided free left model ih =>
      subst hlen
      have hfree := (free_of_firstFree? free).2
      have hdeeper : (below ++ [Level.mk b (some v)]).length = below.length + 1 := by simp
      obtain ⟨r, hcloses, hrun⟩ := ih hdeeper
      rw [model] at hcloses
      refine ⟨r, by rw [Finding.found, model]; exact hcloses, ?_⟩
      intro position
      simp only [Finding.found, Propagation.settled, List.map_append, List.map_cons]
      rw [run_append]
      refine ⟨_, run_derives chain position, ?_⟩
      rw [run_cons_eq_ok_iff]
      refine ⟨_, step_of_admits (.attempt hfree rfl settled) (by simp) _, ?_⟩
      rw [opening_eq hfree]
      exact hrun _
  | @backtracked depth a b ls v first second chain settled undecided free left refuted right ih₁
      ih₂ =>
      subst hlen
      have hfree := (free_of_firstFree? free).2
      have hopen : (below ++ [Level.mk b (some v)]).length = below.length + 1 := by simp
      have hclosed : (below ++ [Level.mk b none]).length = below.length + 1 := by simp
      obtain ⟨r₁, hcloses₁, hrun₁⟩ := ih₁ hopen
      obtain ⟨r₂, hcloses₂, hrun₂⟩ := ih₂ hclosed
      rw [refuted] at hcloses₁
      obtain ⟨rest, rfl, hrest⟩ := hcloses₁
      refine ⟨r₂, ?_, ?_⟩
      · -- the level of the frame itself is closed by the second branch
        simp only [Finding.backtracked]
        cases hm : second.model with
        | some m => rwa [hm] at hcloses₂
        | none =>
            rw [hm] at hcloses₂
            obtain ⟨rest₂, rfl, hrest₂⟩ := hcloses₂
            refine ⟨⟨b, none⟩ :: rest₂, by simp, ?_⟩
            rw [List.forall_mem_cons]
            exact ⟨rfl, hrest₂⟩
      · intro position
        simp only [Finding.backtracked, Propagation.settled, List.map_append, List.map_cons]
        rw [run_append]
        refine ⟨_, run_derives chain position, ?_⟩
        rw [run_cons_eq_ok_iff]
        refine ⟨_, step_of_admits (.attempt hfree rfl settled) (by simp) _, ?_⟩
        rw [opening_eq hfree, run_append]
        refine ⟨_, hrun₁ _, ?_⟩
        rw [run_cons_eq_ok_iff, List.append_assoc, List.singleton_append]
        refine ⟨_, step_of_admits (.backtrack rfl) hrest _, ?_⟩
        rw [opening_eq hfree]
        exact hrun₂ _

end Replay

/-! ## Whole searches -/

/-- A search that finds nothing ends in a conflict. -/
theorem Explored.getLast?_events {f : Formula} {order : List String} {depth : Nat} {a : Assignment}
    {d : Finding} (h : Explored f order depth a d) (hd : d.model = none) :
    ∃ i e, d.events.getLast? = some ⟨.conflict i, e⟩ := by
  induction h with
  | @failed depth i _ _ _ _ _ _ _ => exact ⟨i, depth, by simp [Finding.leaf, Propagation.failed]⟩
  | satisfied => cases hd
  | found _ _ _ _ _ model => exact absurd (model.symm.trans hd) (by simp)
  | backtracked _ _ _ _ _ _ _ _ ih₂ =>
      obtain ⟨i, e, hlast⟩ := ih₂ hd
      exact ⟨i, e, by simp [Finding.backtracked, List.getLast?_append, List.getLast?_cons, hlast]⟩

/-- The trace of every search is accepted as the record of its outcome. -/
theorem Formula.checkOutcome_solve (f : Formula) : Replay.checkOutcome f f.solve = none := by
  have hx := explored_solve f
  have hlen : ([] : List Level).length = 0 := rfl
  obtain ⟨r, hcloses, hrun⟩ := Replay.run_explored hx hlen
  cases hd : (search f f.names 0 ∅).model with
  | none =>
      rw [hd] at hcloses
      obtain ⟨rest, rfl, hrest⟩ := hcloses
      obtain ⟨i, e, hlast⟩ := hx.getLast?_events hd
      simp only [Replay.checkOutcome, solve, hd]
      rw [Replay.check_unsatisfiable_eq_none_iff]
      refine ⟨rest, hrun 0, ?_, hrest⟩
      rw [List.getLast?_map, hlast]
      rfl
  | some b =>
      rw [hd] at hcloses
      obtain rfl := hcloses
      have hgreatest := Formula.greatestModel_of_explored hx hd
      have hsame : b.sameMapping b = true := Assignment.sameMapping_iff.2 fun _ => rfl
      simp only [Replay.checkOutcome, solve, hd, Replay.check]
      rw [show Replay.start = .running ([] ++ [{ frame := ∅ }]) from rfl, hrun 0]
      simp [Replay.objection?, hsame, hgreatest.satisfies]

end DecisionTrace
