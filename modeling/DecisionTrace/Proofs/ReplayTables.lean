import DecisionTrace.Proofs.ReplayFrames
import Mathlib.Data.List.Enum
import Mathlib.Data.List.Nodup
import Mathlib.Data.List.Perm.Basic

/-!
# A replay on tables

A replay can also be told with two tables under depths, one of frames and one of open attempts, and
without any order among them: a branch puts a frame under the next depth, and an event at a depth
first removes the frames under all greater ones. Nothing in this says that the depths of a table
follow each other.

`ReplayTables` is this replay, function by function beside the one on levels. While the tables
mirror some levels (`Mirrors`), both take the same steps and reject for the same reasons
(`step_agrees`, `run_agrees`), so they come to the same verdict (`check_eq`). Of the tables it
follows that their frames stand under the depths from zero to the number of branches of the path,
each with the bindings of the one before, and each with nothing but what the formula and the
branches that lead to it entail (`groundedTable_run`).
-/

open scoped List

namespace DecisionTrace

/-! ## Tables -/

/-- Items under depths, no two under the same. The order of the list has no meaning. -/
structure DepthTable (α : Type) where
  entries : List (Int × α)
  nodup : (entries.map Prod.fst).Nodup

namespace DepthTable

variable {α : Type}

/-- The table without items. -/
def empty : DepthTable α :=
  ⟨[], .nil⟩

/-- The depths under which there is an item. -/
def depths (t : DepthTable α) : List Int :=
  t.entries.map Prod.fst

/-- The item under a depth. -/
def get? (t : DepthTable α) (d : Int) : Option α :=
  t.entries.lookup d

/-- The table with the items under some of its depths. -/
def keep (t : DepthTable α) (p : Int → Bool) : DepthTable α where
  entries := t.entries.filter fun e => p e.1
  nodup := t.nodup.sublist (List.filter_sublist.map _)

/-- The table with an item under a depth, in place of the one that was there. -/
def put (t : DepthTable α) (d : Int) (x : α) : DepthTable α where
  entries := (t.keep (· ≠ d)).entries ++ [(d, x)]
  nodup := by
    rw [List.map_append, List.nodup_append]
    refine ⟨(t.keep (· ≠ d)).nodup, List.nodup_singleton d, ?_⟩
    simp only [keep, List.mem_map, List.mem_filter, decide_eq_true_eq, List.map_singleton,
      List.mem_singleton]
    rintro _ ⟨e, ⟨-, hne⟩, rfl⟩ _ rfl
    exact hne

variable {t : DepthTable α} {d k : Int} {x : α}

theorem get?_eq_some_iff : t.get? d = some x ↔ (d, x) ∈ t.entries :=
  Assignment.lookup_eq_some_iff_mem t.nodup

theorem mem_depths_iff : d ∈ t.depths ↔ (t.get? d).isSome = true := by
  rw [Option.isSome_iff_exists, depths, List.mem_map]
  simp only [get?_eq_some_iff]
  constructor
  · rintro ⟨e, he, rfl⟩
    exact ⟨e.2, he⟩
  · rintro ⟨x, hx⟩
    exact ⟨_, hx, rfl⟩

@[simp]
theorem get?_keep (t : DepthTable α) (p : Int → Bool) (d : Int) :
    (t.keep p).get? d = if p d then t.get? d else none := by
  refine Option.ext fun x => ?_
  rw [get?_eq_some_iff, keep, List.mem_filter]
  cases p d <;> simp [get?_eq_some_iff]

@[simp]
theorem get?_put (t : DepthTable α) (k : Int) (x : α) (d : Int) :
    (t.put k x).get? d = if d = k then some x else t.get? d := by
  refine Option.ext fun y => ?_
  rw [get?_eq_some_iff, put, List.mem_append, List.mem_singleton, ← get?_eq_some_iff, get?_keep]
  by_cases h : d = k
  · subst h
    simp [eq_comm]
  · simp [h]

end DepthTable

/-! ## The replay -/

/-- Where a replay on tables stands. -/
structure ReplayTables where
  frames : DepthTable Assignment
  /-- The variables of the attempts whose second branch has not come yet. -/
  openTries : DepthTable String
  /-- The frame in which success was reported. -/
  success : Option Assignment := none

namespace ReplayTables

/-- The start: one frame, which binds nothing. -/
def start : ReplayTables where
  frames := DepthTable.empty.put 0 ∅
  openTries := .empty

/-- The least depth beyond a depth where an attempt is open. -/
def unfinished? (t : ReplayTables) (depth : Int) : Option Int :=
  (t.openTries.depths.filter (depth < ·)).min?

/-- One action at a depth with a frame. -/
def act (f : Formula) (position : Nat) (depth : Int) (frame : Assignment) (t : ReplayTables) :
    Action → Except Rejection ReplayTables
  | .propagate name value =>
    if frame.binds name then .error (.alreadyAssigned name)
    else if !f.forces frame ⟨name, !value⟩ then .error (.notForced name value)
    else .ok { t with frames := t.frames.put depth (frame.extend name value) }
  | .conflict clause =>
    match if 0 ≤ clause then f.clauses[clause.toNat]? else none with
    | none => .error (.unknownClause clause)
    | some c =>
      if c.status frame = .falsified then .ok t else .error (.notFalsified clause position)
  | .allSatisfied =>
    if f.satisfiedBy frame then .ok { t with success := some frame }
    else .error (.notSatisfied position)
  | .branch .attempt name value =>
    if frame.binds name then .error (.branchOnAssigned name)
    else if !value then .error (.attemptOfFalse name)
    else
      match t.openTries.get? depth with
      | some other => .error (.secondAttempt depth.toNat other)
      | none =>
        if f.hasPending frame then .error (.propagationPending name)
        else
          .ok
            { t with
              openTries := t.openTries.put depth name
              frames := t.frames.put (depth + 1) (frame.set name value) }
  | .branch .backtrack name value =>
    if t.openTries.get? depth ≠ some name ∨ value = true then .error (.unmatchedBacktrack name)
    else
      .ok
        { t with
          openTries := t.openTries.keep (· ≠ depth)
          frames := t.frames.put (depth + 1) (frame.set name value) }

/-- One entry of a trace at a position. -/
def step (f : Formula) (position : Nat) (entry : Entry) (t : ReplayTables) :
    Except Rejection ReplayTables :=
  match t.success with
  | some _ => .error (.afterSuccess position entry)
  | none =>
    match t.frames.get? entry.depth with
    | none => .error (.noFrame entry.depth position)
    | some frame =>
      match t.unfinished? entry.depth with
      | some d => .error (.leftOpen d.toNat ((t.openTries.get? d).getD ""))
      | none =>
        match entry with
        | .foreign kind _ => .error (.unknownKind kind)
        | .event e =>
          act f position e.depth frame { t with frames := t.frames.keep (· ≤ e.depth) } e.action

/-- All entries of a trace whose first has the given position. -/
def run (f : Formula) : (position : Nat) → List Entry → ReplayTables →
    Except Rejection ReplayTables
  | _, [], t => .ok t
  | position, entry :: entries, t =>
    match step f position entry t with
    | .error e => .error e
    | .ok next => run f (position + 1) entries next

/-- The variables of the attempts that are still open, in order. -/
def openNames (t : ReplayTables) : List String :=
  (t.openTries.entries.map Prod.snd).foldr Replay.insertSorted []

/-- What speaks against a verdict once the whole trace has been replayed. -/
def objection? (f : Formula) (entries : List Entry) (verdict : Verdict) (t : ReplayTables) :
    Option Rejection :=
  match verdict, t.success with
  | .unsatisfiable, some _ => some .successInRefutation
  | .unsatisfiable, none =>
    if !entries.getLast?.any Replay.isConflict then some .noFinalConflict
    else
      match t.openNames with
      | [] => none
      | names => some (.unexplored names)
  | .satisfiable _ _, none => some .noSuccess
  | .satisfiable assignment snapshot, some frame =>
    if !frame.sameMapping snapshot then some .snapshotDiffers
    else if !f.satisfiedBy assignment then some .assignmentFails
    else none

/-- The check of a verdict and its trace. -/
def check (f : Formula) (verdict : Verdict) (entries : List Entry) : Option Rejection :=
  match run f 0 entries start with
  | .error e => some e
  | .ok final => objection? f entries verdict final

/-! ## Levels under depths -/

/-- The level at a depth; there is none at a negative depth. -/
def levelAt (levels : List Level) (d : Int) : Option Level :=
  if 0 ≤ d then levels[d.toNat]? else none

open Replay

variable {f : Formula} {position : Nat} {entry : Entry} {entries : List Entry} {verdict : Verdict}
  {t : ReplayTables} {below deeper levels : List Level} {level : Level} {action : Action} {d : Int}

theorem levelAt_natCast (levels : List Level) (k : Nat) : levelAt levels k = levels[k]? := by
  rw [levelAt, if_pos (Int.natCast_nonneg k), Int.toNat_natCast]

theorem levelAt_isSome_iff : (levelAt levels d).isSome = true ↔ 0 ≤ d ∧ d < levels.length := by
  rw [levelAt]
  split
  · rw [Option.isSome_iff_ne_none, ne_eq, List.getElem?_eq_none_iff]
    omega
  · simp only [Option.isSome_none, Bool.false_eq_true, false_iff]
    omega

/-- The levels up to some depth are those of a longer list. -/
theorem levelAt_eq_ite (below deeper : List Level) (d : Int) :
    levelAt below d = if d < below.length then levelAt (below ++ deeper) d else none := by
  rw [levelAt, levelAt]
  split
  · split
    · rw [List.getElem?_append_left (by omega)]
    · exact List.getElem?_eq_none (by omega)
  · rw [ite_self]

theorem levelAt_concat (below : List Level) (level : Level) (d : Int) :
    levelAt (below ++ [level]) d = if d = below.length then some level else levelAt below d := by
  split
  · next h =>
    rw [h, levelAt_natCast, List.getElem?_concat_length]
  · next h =>
    rw [levelAt_eq_ite below [level] d]
    split
    · rfl
    · rw [← Option.not_isSome_iff_eq_none, levelAt_isSome_iff, List.length_append,
        List.length_singleton]
      omega

/-! ## Tables that mirror levels -/

/-- The tables have the frames and the open attempts of the levels, each under its depth. -/
structure Mirrors (t : ReplayTables) (levels : List Level) : Prop where
  frames : ∀ d, t.frames.get? d = (levelAt levels d).map Level.frame
  openTries : ∀ d, t.openTries.get? d = (levelAt levels d).bind Level.openTry

namespace Mirrors

theorem start : Mirrors start [{ frame := ∅ }] where
  frames d := by
    rw [ReplayTables.start, DepthTable.get?_put, ← List.nil_append [_], levelAt_concat]
    by_cases hd : d = 0 <;> simp [hd, DepthTable.empty, DepthTable.get?, levelAt]
  openTries d := by
    rw [← List.nil_append [_], levelAt_concat]
    by_cases hd : d = 0 <;>
      simp [hd, ReplayTables.start, DepthTable.empty, DepthTable.get?, levelAt]

/-- The frames beyond a depth are removed with the levels there, if no attempt is open in them. -/
theorem cut (h : Mirrors t (below ++ level :: deeper)) (hclosed : ∀ l ∈ deeper, l.openTry = none) :
    Mirrors { t with frames := t.frames.keep (· ≤ below.length) } (below ++ [level]) := by
  have hlevel : ∀ d, levelAt (below ++ [level]) d =
      if d ≤ below.length then levelAt (below ++ level :: deeper) d else none := by
    intro d
    rw [levelAt_eq_ite (below ++ [level]) deeper, List.append_assoc, List.singleton_append,
      List.length_append, List.length_singleton]
    exact if_congr (by omega) rfl rfl
  constructor
  · intro d
    rw [hlevel, DepthTable.get?_keep, h.frames]
    by_cases hd : d ≤ below.length <;> simp [hd]
  · intro d
    rw [hlevel, h.openTries]
    split
    · rfl
    · next hd =>
      -- beyond the depth no attempt is open
      rw [Option.bind_none, Option.bind_eq_none_iff]
      intro l hl
      rw [levelAt] at hl
      split at hl
      · rw [List.getElem?_append_right (by omega), List.getElem?_cons,
          if_neg (by omega)] at hl
        exact hclosed l (List.mem_of_getElem? hl)
      · cases hl

/-- Another frame in the deepest level. -/
theorem setFrame (h : Mirrors t (below ++ [level])) (a : Assignment) :
    Mirrors { t with frames := t.frames.put below.length a }
      (below ++ [{ level with frame := a }]) := by
  constructor
  · intro d
    rw [DepthTable.get?_put, levelAt_concat, h.frames, levelAt_concat]
    split <;> simp_all
  · intro d
    rw [levelAt_concat, h.openTries, levelAt_concat]
    split <;> simp

/-- Another attempt in the deepest level, or none. -/
theorem setOpenTry (h : Mirrors t (below ++ [level])) {openTries : DepthTable String}
    {openTry : Option String} (hopen : ∀ d, openTries.get? d =
      if d = below.length then openTry else t.openTries.get? d) :
    Mirrors { t with openTries } (below ++ [{ level with openTry }]) := by
  constructor
  · intro d
    rw [levelAt_concat, h.frames, levelAt_concat]
    split <;> simp
  · intro d
    rw [hopen, levelAt_concat, h.openTries, levelAt_concat]
    split <;> simp_all

/-- A further level without an attempt. -/
theorem push (h : Mirrors t levels) (a : Assignment) :
    Mirrors { t with frames := t.frames.put levels.length a } (levels ++ [{ frame := a }]) := by
  have hfree : levelAt levels levels.length = none := by
    rw [levelAt_natCast, List.getElem?_length]
  constructor
  · intro d
    rw [DepthTable.get?_put, levelAt_concat, h.frames]
    split <;> simp
  · intro d
    rw [levelAt_concat, h.openTries]
    split
    · next hd => simp [hd, hfree]
    · rfl

end Mirrors

/-! ## Steps -/

/-- The replay on levels that the tables stand for. -/
def state (t : ReplayTables) (levels : List Level) : Replay :=
  match t.success with
  | none => .running levels
  | some frame => .succeeded frame

/-- Both replays accept, and the tables mirror levels again, or both reject for the same reason. -/
inductive Agrees : Except Rejection ReplayTables → Except Rejection Replay → Prop
  | accepted {t : ReplayTables} {levels : List Level} {r : Replay} (mirrors : Mirrors t levels)
      (state_eq : r = t.state levels) : Agrees (.ok t) (.ok r)
  | rejected (reason : Rejection) : Agrees (.error reason) (.error reason)

/-- Both replays accept, and the tables mirror the levels that are still running. -/
theorem Agrees.running (h : Mirrors t levels) (hsuccess : t.success = none) :
    Agrees (.ok t) (.ok (.running levels)) :=
  .accepted h (by rw [state, hsuccess])

/-- A branch, once the open attempts of the tables are those after it. -/
theorem opening_agrees (h : Mirrors t (below ++ [level])) (hsuccess : t.success = none)
    {openTries : DepthTable String} {openTry : Option String}
    (hopen : ∀ d, openTries.get? d = if d = below.length then openTry else t.openTries.get? d)
    (name : String) (value : Bool) :
    Agrees
      (.ok
        { t with
          openTries
          frames := t.frames.put ((below.length : Int) + 1) (level.frame.set name value) })
      (.ok (opening below level openTry name value)) := by
  have hpush := (h.setOpenTry hopen).push (level.frame.set name value)
  rw [List.append_assoc, List.singleton_append, List.length_append, List.length_singleton,
    Int.natCast_succ] at hpush
  exact .running hpush hsuccess

theorem act_agrees (h : Mirrors t (below ++ [level])) (hsuccess : t.success = none) :
    Agrees (act f position below.length level.frame t action)
      (Replay.act f position below level action) := by
  have hopen : t.openTries.get? below.length = level.openTry := by
    rw [h.openTries, levelAt_concat, if_pos rfl, Option.bind_some]
  cases action with
  | propagate name value =>
      simp only [act, Replay.act]
      split
      · exact .rejected _
      · split
        · exact .rejected _
        · exact .running (h.setFrame _) hsuccess
  | conflict clause =>
      simp only [act, Replay.act]
      cases if 0 ≤ clause then f.clauses[clause.toNat]? else none with
      | none => exact .rejected _
      | some c =>
          simp only
          split
          · exact .running h hsuccess
          · exact .rejected _
  | allSatisfied =>
      simp only [act, Replay.act]
      split
      · have hm : Mirrors { t with success := some level.frame } (below ++ [level]) :=
          ⟨h.frames, h.openTries⟩
        exact .accepted hm rfl
      · exact .rejected _
  | branch kind name value =>
      cases kind with
      | attempt =>
          simp only [act, Replay.act, hopen, Int.toNat_natCast]
          split
          · exact .rejected _
          · split
            · exact .rejected _
            · cases level.openTry with
              | some other => exact .rejected _
              | none =>
                  simp only
                  split
                  · exact .rejected _
                  · exact opening_agrees h hsuccess (fun d => DepthTable.get?_put ..) name value
      | backtrack =>
          simp only [act, Replay.act, hopen]
          split
          · exact .rejected _
          · refine opening_agrees h hsuccess (fun d => ?_) name value
            rw [DepthTable.get?_keep]
            by_cases hd : d = below.length <;> simp [hd]

/-! ## The first open attempt -/

/-- The next depth is the least one beyond a depth if an attempt is open there. -/
theorem unfinished?_of_isSome (h : (t.openTries.get? (d + 1)).isSome = true) :
    t.unfinished? d = some (d + 1) := by
  rw [unfinished?, List.min?_eq_some_iff]
  simp only [List.mem_filter, decide_eq_true_eq, DepthTable.mem_depths_iff]
  exact ⟨⟨h, by omega⟩, fun k hk => by omega⟩

/-- A depth where no attempt is open can be left out. -/
theorem unfinished?_of_eq_none (h : t.openTries.get? (d + 1) = none) :
    t.unfinished? d = t.unfinished? (d + 1) := by
  rw [unfinished?, unfinished?]
  congr 1
  refine List.filter_congr fun k hk => ?_
  have hne : k ≠ d + 1 := by
    rintro rfl
    rw [DepthTable.mem_depths_iff, h] at hk
    cases hk
  rw [decide_eq_decide]
  omega

/-- The first attempt that is open beyond a level, with its depth. -/
theorem Mirrors.unfinished?_eq (h : Mirrors t (below ++ level :: deeper)) :
    (t.unfinished? below.length).map (fun d => (d.toNat, (t.openTries.get? d).getD "")) =
      firstOpen? (below.length + 1) deeper := by
  induction deeper generalizing below level with
  | nil =>
      have hnone : t.unfinished? below.length = none := by
        rw [unfinished?, List.min?_eq_none_iff, List.filter_eq_nil_iff]
        intro d hd
        rw [DepthTable.mem_depths_iff, h.openTries, Option.isSome_bind] at hd
        have hlevel := levelAt_isSome_iff.1 (Option.isSome_of_any hd)
        simp only [List.length_append, List.length_singleton] at hlevel
        rw [decide_eq_true_eq]
        omega
      rw [hnone]
      rfl
  | cons next deeper ih =>
      have hget : t.openTries.get? ((below.length : Int) + 1) = next.openTry := by
        rw [h.openTries, ← Int.natCast_succ, levelAt_natCast]
        simp
      rw [firstOpen?]
      cases hopen : next.openTry with
      | some name =>
          rw [hopen] at hget
          rw [unfinished?_of_isSome (by rw [hget]; rfl), Option.map_some, hget]
          rfl
      | none =>
          rw [hopen] at hget
          rw [unfinished?_of_eq_none hget]
          have hmirrors : Mirrors t ((below ++ [level]) ++ next :: deeper) := by
            rwa [List.append_assoc]
          have hnext := ih hmirrors
          rwa [List.length_append, List.length_singleton, Int.natCast_succ] at hnext

/-! ## Runs -/

theorem exists_append_of_levelAt (h : levelAt levels d = some level) :
    ∃ below deeper, levels = below ++ level :: deeper ∧ d = below.length := by
  rw [levelAt] at h
  split at h
  · next hd =>
    obtain ⟨below, deeper, rfl, hlength⟩ := Replay.exists_append_of_getElem? h
    exact ⟨below, deeper, rfl, by omega⟩
  · cases h

/-- Both replays take a step alike. -/
theorem step_agrees (h : Mirrors t levels) :
    Agrees (step f position entry t) (Replay.step f position entry (t.state levels)) := by
  cases hsuccess : t.success with
  | some frame =>
      simp only [step, state, hsuccess, Replay.step]
      exact .rejected _
  | none =>
      simp only [step, state, hsuccess, Replay.step]
      rw [h.frames]
      cases hlevel : levelAt levels entry.depth with
      | none =>
          rw [levelAt] at hlevel
          simp only [hlevel]
          exact .rejected _
      | some level =>
          obtain ⟨below, deeper, rfl, hdepth⟩ := exists_append_of_levelAt hlevel
          simp only [hdepth, Int.toNat_natCast, Int.natCast_nonneg, if_true,
            Replay.getElem?_length_append, Replay.drop_length_append, List.take_left,
            Option.map_some]
          have hfirst := h.unfinished?_eq
          rw [← hfirst]
          cases hopen : t.unfinished? below.length with
          | some d => exact .rejected _
          | none =>
              rw [hopen] at hfirst
              cases entry with
              | foreign kind depth => exact .rejected _
              | event e =>
                  obtain ⟨action, depth⟩ := e
                  obtain rfl : depth = below.length := hdepth
                  have hcut := h.cut (Replay.firstOpen?_eq_none_iff.1 hfirst.symm)
                  rw [hsuccess] at hcut
                  exact act_agrees hcut rfl

/-- Both replays of a whole trace come to the same end. -/
theorem run_agrees (h : Mirrors t levels) :
    Agrees (run f position entries t) (Replay.run f position entries (t.state levels)) := by
  induction entries generalizing position t levels with
  | nil => exact .accepted h rfl
  | cons entry entries ih =>
      rw [run, Replay.run]
      have hstep : Agrees (step f position entry t)
          (Replay.step f position entry (t.state levels)) := step_agrees h
      generalize step f position entry t = taken at hstep
      generalize Replay.step f position entry (t.state levels) = taken' at hstep
      cases hstep with
      | accepted hm heq =>
          subst heq
          exact ih hm
      | rejected reason => exact .rejected reason

/-- Both start alike. -/
theorem run_start_agrees (f : Formula) (entries : List Entry) :
    Agrees (run f 0 entries start) (Replay.run f 0 entries Replay.start) :=
  run_agrees Mirrors.start

/-! ## Verdicts -/

/-- The open attempts of levels, each with its depth. -/
def attempts (levels : List Level) : List (Int × String) :=
  levels.zipIdx.filterMap fun p => p.1.openTry.map ((p.2 : Int), ·)

theorem map_snd_attempts (levels : List Level) :
    (attempts levels).map Prod.snd = levels.filterMap Level.openTry := by
  have hsnd : ∀ p : Level × Nat,
      (p.1.openTry.map ((p.2 : Int), ·)).map Prod.snd = (Level.openTry ∘ Prod.fst) p := by
    intro p
    rw [Option.map_map]
    exact Option.map_id'
  rw [attempts, List.map_filterMap]
  simp only [hsnd]
  rw [← List.filterMap_map, List.zipIdx_map_fst]

theorem nodup_attempts (levels : List Level) : (attempts levels).Nodup := by
  have hlt : levels.zipIdx.Pairwise fun p q => p.2 < q.2 := by
    rw [← List.pairwise_map, List.zipIdx_map_snd]
    exact List.pairwise_lt_range'
  refine List.Pairwise.filterMap _ ?_ hlt
  intro p q hpq x hx y hy hxy
  subst hxy
  obtain ⟨n, -, rfl⟩ := Option.map_eq_some_iff.1 hx
  obtain ⟨m, -, heq⟩ := Option.map_eq_some_iff.1 hy
  rw [Prod.mk.injEq] at heq
  omega

theorem mem_attempts_iff {name : String} :
    (d, name) ∈ attempts levels ↔ (levelAt levels d).bind Level.openTry = some name := by
  rw [attempts, List.mem_filterMap, levelAt]
  constructor
  · rintro ⟨⟨level, k⟩, hmem, hmap⟩
    obtain ⟨n, hopen, heq⟩ := Option.map_eq_some_iff.1 hmap
    obtain ⟨rfl, rfl⟩ := Prod.mk.injEq .. ▸ heq
    rw [if_pos (Int.natCast_nonneg k), Int.toNat_natCast,
      List.mk_mem_zipIdx_iff_getElem?.1 hmem]
    exact hopen
  · intro h
    obtain ⟨level, hlevel, hopen⟩ := Option.bind_eq_some_iff.1 h
    split at hlevel
    · next hd =>
      refine ⟨(level, d.toNat), List.mk_mem_zipIdx_iff_getElem?.2 hlevel, ?_⟩
      rw [hopen, Int.toNat_of_nonneg hd]
      rfl
    · cases hlevel

/-- The table of open attempts has those of the levels, in whatever order. -/
theorem Mirrors.perm_attempts (h : Mirrors t levels) : t.openTries.entries ~ attempts levels := by
  refine (List.perm_ext_iff_of_nodup (.of_map _ t.openTries.nodup) (nodup_attempts levels)).2 ?_
  rintro ⟨d, name⟩
  rw [← DepthTable.get?_eq_some_iff, h.openTries, mem_attempts_iff]

theorem insertSorted_insertSorted (m n : String) (names : List String) :
    insertSorted m (insertSorted n names) = insertSorted n (insertSorted m names) := by
  induction names with
  | nil => grind [insertSorted]
  | cons k names ih => grind [insertSorted]

instance : LeftCommutative insertSorted :=
  ⟨insertSorted_insertSorted⟩

theorem Mirrors.openNames_eq (h : Mirrors t levels) : t.openNames = Replay.openNames levels := by
  rw [openNames, Replay.openNames, ← map_snd_attempts]
  exact (h.perm_attempts.map Prod.snd).foldr_eq []

theorem Mirrors.objection?_eq (h : Mirrors t levels) :
    objection? f entries verdict t = Replay.objection? f entries verdict (t.state levels) := by
  cases hsuccess : t.success with
  | none =>
      cases verdict with
      | unsatisfiable =>
          have hnames := h.openNames_eq
          cases hlevels : Replay.openNames levels <;> rw [hlevels] at hnames <;>
            simp only [objection?, state, hsuccess, Replay.objection?, hnames, hlevels]
      | satisfiable => simp only [objection?, state, hsuccess, Replay.objection?]
  | some frame => cases verdict <;> simp only [objection?, state, hsuccess, Replay.objection?]

/-- Both replays come to the same verdict, with the same reason. -/
theorem check_eq (f : Formula) (verdict : Verdict) (entries : List Entry) :
    check f verdict entries = Replay.check f verdict entries := by
  have hrun := run_start_agrees f entries
  rw [check, Replay.check]
  generalize run f 0 entries start = final at hrun
  generalize Replay.run f 0 entries Replay.start = final' at hrun
  cases hrun with
  | accepted h heq =>
      subst heq
      exact h.objection?_eq
  | rejected reason => rfl

/-! ## The depths of a table -/

/-- What the frames of a table have in common: they stand under the depths from zero to the number
of branches, each has the bindings of the one before, and a model with the branches that lead to a
frame has all its bindings. -/
structure GroundedTable (f : Formula) (bs : List (String × Bool)) (frames : DepthTable Assignment) :
    Prop where
  mem_depths_iff : ∀ d, d ∈ frames.depths ↔ 0 ≤ d ∧ d ≤ bs.length
  nested : ∀ d a b, frames.get? d = some a → frames.get? (d + 1) = some b → a ≤ b
  entailed : ∀ d a, frames.get? d = some a →
    ∀ m, f.satisfiedBy m = true → m.Includes (bs.take d.toNat) → a ≤ m

/-- A frame of the table is the one of the level at its depth. -/
theorem Mirrors.getElem?_of_get? {a : Assignment} (h : Mirrors t levels)
    (ha : t.frames.get? d = some a) :
    0 ≤ d ∧ (levels.map Level.frame)[d.toNat]? = some a := by
  rw [h.frames, levelAt] at ha
  split at ha
  · next hd =>
    rw [List.getElem?_map]
    exact ⟨hd, ha⟩
  · cases ha

theorem Mirrors.groundedTable {bs : List (String × Bool)} (h : Mirrors t levels)
    (hg : Grounded f bs (levels.map Level.frame)) : GroundedTable f bs t.frames where
  mem_depths_iff d := by
    have hlen := hg.length_eq
    rw [List.length_map] at hlen
    rw [DepthTable.mem_depths_iff, h.frames, Option.isSome_map, levelAt_isSome_iff]
    omega
  nested d a b ha hb := by
    obtain ⟨hd, ha⟩ := h.getElem?_of_get? ha
    obtain ⟨-, hb⟩ := h.getElem?_of_get? hb
    rw [Int.toNat_add hd (by omega)] at hb
    obtain ⟨hlt, rfl⟩ := List.getElem?_eq_some_iff.1 hb
    obtain ⟨-, rfl⟩ := List.getElem?_eq_some_iff.1 ha
    exact List.isChain_iff_getElem.1 hg.nested d.toNat hlt
  entailed d a ha := hg.entailed d.toNat a (h.getElem?_of_get? ha).2

/-- Before success, the frames of a table are grounded in the path. -/
theorem groundedTable_run (hrun : run f 0 entries start = .ok t) (hsuccess : t.success = none) :
    GroundedTable f (path entries) t.frames := by
  have hagrees := run_start_agrees f entries
  rw [hrun] at hagrees
  generalize hlevels : Replay.run f 0 entries Replay.start = final at hagrees
  cases hagrees with
  | accepted h heq =>
      rw [heq, state, hsuccess] at hlevels
      exact h.groundedTable (groundedLevels_run GroundedLevels.start hlevels).grounded

end ReplayTables

end DecisionTrace
