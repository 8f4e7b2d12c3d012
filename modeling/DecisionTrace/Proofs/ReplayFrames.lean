import DecisionTrace.Proofs.FailedBranches
import Mathlib.Data.List.Chain

/-!
# The frames of a replay

While a trace is accepted, the open frames stand at the depths from zero up to the number of
branches on the current path, each frame keeps the bindings of the one below it, and whatever a
frame binds follows from the formula and the branches that lead to it (`Grounded`). No other order
among the entries of a trace is asked for: it may jump back over any number of levels and open them
again.

`groundedLevels_step` says that an accepted step preserves this, `groundedLevels_run` that a replay
does. At a conflict no model is left above the branches of the path, and what is reported as success
satisfies the formula, whatever is bound in addition (`exists_openFrames`).
-/

namespace DecisionTrace

/-- The assignment has all of some bindings. -/
def Assignment.Includes (m : Assignment) (bs : List (String × Bool)) : Prop :=
  ∀ b ∈ bs, m.value? b.1 = some b.2

namespace Replay

variable {f : Formula} {a b m : Assignment} {position : Nat} {entries : List Entry} {entry : Entry}
  {below deeper levels levels' : List Level} {level : Level} {next final : Replay}
  {bs : List (String × Bool)} {frames : List Assignment}

/-! ## The branches of a path -/

/-- The branches that are in force after an entry: those up to its depth, and its own if it is
one. -/
def pathAfter (bs : List (String × Bool)) : Entry → List (String × Bool)
  | .event ⟨.branch _ name value, depth⟩ => bs.take depth.toNat ++ [(name, value)]
  | entry => bs.take entry.depth.toNat

/-- The branches that are in force at the end of a trace, the shallowest first. -/
def path (entries : List Entry) : List (String × Bool) :=
  entries.foldl pathAfter []

/-! ## Grounded frames -/

/-- What the open frames have in common: one stands at every depth from zero to the number of
branches, each has the bindings of the one before, and a model with the branches that lead to a
frame has all its bindings. -/
structure Grounded (f : Formula) (bs : List (String × Bool)) (frames : List Assignment) :
    Prop where
  length_eq : frames.length = bs.length + 1
  nested : frames.IsChain (· ≤ ·)
  entailed : ∀ d a, frames[d]? = some a →
    ∀ m, f.satisfiedBy m = true → m.Includes (bs.take d) → a ≤ m

namespace Grounded

variable {below : List Assignment}

theorem start : Grounded f [] [∅] where
  length_eq := rfl
  nested := List.isChain_singleton _
  entailed := by
    intro d a ha m _ _
    obtain ⟨-, rfl⟩ : d = 0 ∧ ∅ = a := by simpa [List.getElem?_singleton] using ha
    exact Assignment.empty_le m

/-- Closing deeper frames. -/
theorem take (h : Grounded f bs frames) {d : Nat} (hd : d ≤ bs.length) :
    Grounded f (bs.take d) (frames.take (d + 1)) where
  length_eq := by
    have hlen := h.length_eq
    simp only [List.length_take]
    omega
  nested := h.nested.take (d + 1)
  entailed := by
    intro j a ha m hm hincl
    obtain ⟨hj, ha⟩ : j < d + 1 ∧ frames[j]? = some a := by
      rw [List.getElem?_take] at ha
      split at ha
      · next hj => exact ⟨hj, ha⟩
      · cases ha
    rw [List.take_take, Nat.min_eq_left (by omega)] at hincl
    exact h.entailed j a ha m hm hincl

/-- A model with all branches of the path has the bindings of the deepest frame. -/
theorem le_of_includes (h : Grounded f bs (below ++ [a])) (hm : f.satisfiedBy m = true)
    (hincl : m.Includes bs) : a ≤ m := by
  have hlen : below.length = bs.length := by simpa using h.length_eq
  apply h.entailed below.length a (by simp) m hm
  rwa [hlen, List.take_length]

/-- More bindings in the deepest frame, which its models have anyway. -/
theorem grow (h : Grounded f bs (below ++ [a])) (hab : a ≤ b)
    (hforced : ∀ m, f.satisfiedBy m = true → a ≤ m → b ≤ m) :
    Grounded f bs (below ++ [b]) where
  length_eq := by simpa using h.length_eq
  nested := by
    obtain ⟨hbelow, -, hlast⟩ := List.isChain_append.1 h.nested
    refine List.isChain_append.2 ⟨hbelow, List.isChain_singleton b, ?_⟩
    intro x hx y hy
    obtain rfl : b = y := by simpa using hy
    exact le_trans (hlast x hx a rfl) hab
  entailed := by
    intro d c hc m hm hincl
    rcases Nat.lt_trichotomy d below.length with hlt | rfl | hgt
    · apply h.entailed d c _ m hm hincl
      rwa [List.getElem?_append_left hlt] at hc ⊢
    · obtain rfl : b = c := by simpa using hc
      exact hforced m hm (h.entailed _ a (by simp) m hm hincl)
    · rw [List.getElem?_eq_none (by simp; omega)] at hc
      cases hc

/-- A further frame for a branch. -/
theorem push {name : String} {value : Bool} (h : Grounded f bs (below ++ [a])) (hab : a ≤ b)
    (hleast : ∀ m, a ≤ m → m.value? name = some value → b ≤ m) :
    Grounded f (bs ++ [(name, value)]) (below ++ [a] ++ [b]) where
  length_eq := by
    rw [List.length_append, h.length_eq, List.length_append, List.length_singleton,
      List.length_singleton]
  nested := by
    refine List.isChain_append.2 ⟨h.nested, List.isChain_singleton b, ?_⟩
    intro x hx y hy
    obtain rfl : a = x := by simpa using hx
    obtain rfl : b = y := by simpa using hy
    exact hab
  entailed := by
    intro d c hc m hm hincl
    have hlen := h.length_eq
    rcases Nat.lt_trichotomy d (below ++ [a]).length with hlt | rfl | hgt
    · rw [List.getElem?_append_left hlt] at hc
      rw [List.take_append_of_le_length (by omega)] at hincl
      exact h.entailed d c hc m hm hincl
    · obtain rfl : b = c := by simpa using hc
      rw [hlen, List.take_of_length_le (by simp)] at hincl
      apply hleast m
      · exact h.le_of_includes hm fun p hp => hincl p (List.mem_append_left _ hp)
      · exact hincl (name, value) (by simp)
    · rw [List.getElem?_eq_none (by simp at hgt ⊢; omega)] at hc
      cases hc

end Grounded

/-! ## Steps and runs -/

/-- Open levels with grounded frames. The variable of an open attempt is free in the frame of its
level, and nothing is left to propagate there. -/
structure GroundedLevels (f : Formula) (bs : List (String × Bool)) (levels : List Level) :
    Prop where
  grounded : Grounded f bs (levels.map Level.frame)
  attempted : ∀ level ∈ levels, ∀ name ∈ level.openTry,
    f.Settled level.frame ∧ level.frame.binds name = false

theorem GroundedLevels.start : GroundedLevels f [] [{ frame := ∅ }] :=
  ⟨Grounded.start, by simp⟩

/-- The frames up to the depth of a level. -/
theorem take_map_frame (below deeper : List Level) (level : Level) :
    ((below ++ level :: deeper).map Level.frame).take (below.length + 1) =
      below.map Level.frame ++ [level.frame] := by
  rw [List.append_cons, List.map_append, List.map_append, List.map_singleton]
  exact List.take_left' (by simp)

/-- Going back to a level closes all deeper ones. -/
theorem GroundedLevels.cut (h : GroundedLevels f bs (below ++ level :: deeper)) :
    Grounded f (bs.take below.length) (below.map Level.frame ++ [level.frame]) := by
  have hlen := h.grounded.length_eq
  simp only [List.length_map, List.length_append, List.length_cons] at hlen
  rw [← take_map_frame below deeper level]
  exact h.grounded.take (by omega)

/-- A branch on a free variable opens a grounded level. -/
theorem GroundedLevels.opening {name : String} {openTry : Option String}
    (h : Grounded f bs (below.map Level.frame ++ [level.frame]))
    (hbelow : ∀ l ∈ below, ∀ n ∈ l.openTry, f.Settled l.frame ∧ l.frame.binds n = false)
    (hfree : level.frame.binds name = false)
    (hopen : ∀ n ∈ openTry, f.Settled level.frame ∧ level.frame.binds n = false) (value : Bool) :
    GroundedLevels f (bs ++ [(name, value)])
      (below ++ [{ level with openTry }, { frame := level.frame.set name value }]) where
  grounded := by
    have hle : level.frame ≤ level.frame.set name value := by
      rw [Assignment.set_eq_extend hfree]
      exact Assignment.le_extend _ name value
    simpa using h.push hle fun m ham hm => Assignment.set_le ham hm
  attempted := by
    rw [List.forall_mem_append, List.forall_mem_cons, List.forall_mem_singleton]
    exact ⟨hbelow, hopen, by simp⟩

/-- An accepted step keeps the frames grounded, along the path after it. -/
theorem groundedLevels_step (h : GroundedLevels f bs levels)
    (hstep : step f position entry (.running levels) = .ok (.running levels')) :
    GroundedLevels f (pathAfter bs entry) levels' := by
  obtain ⟨action, below, level, deeper, rfl, rfl, -, hadmits⟩ := exists_admits_of_step hstep
  have hcut := h.cut
  have hattempted := h.attempted
  rw [List.forall_mem_append, List.forall_mem_cons] at hattempted
  obtain ⟨hbelow, hlevel, -⟩ := hattempted
  cases hadmits with
  | @propagate n v free forced =>
      -- a level with an open attempt has nothing left to propagate
      have hclosed : level.openTry = none := by
        rw [Option.eq_none_iff_forall_not_mem]
        intro name hname
        rw [Formula.forces_eq_false_of_settled (hlevel name hname).1] at forced
        cases forced
      constructor
      · rw [List.map_append, List.map_singleton]
        refine hcut.grow (Assignment.le_extend _ n v) ?_
        intro m hm hle
        exact (Assignment.extend_le_iff free).2 ⟨hle, Formula.value?_of_forces forced hle hm⟩
      · rw [List.forall_mem_append, List.forall_mem_singleton]
        exact ⟨hbelow, by simp [hclosed]⟩
  | conflict =>
      constructor
      · rw [List.map_append, List.map_singleton]
        exact hcut
      · rw [List.forall_mem_append, List.forall_mem_singleton]
        exact ⟨hbelow, hlevel⟩
  | @attempt n free closed settled =>
      refine GroundedLevels.opening hcut hbelow free ?_ true
      intro name hname
      obtain rfl : n = name := by simpa using hname
      exact ⟨settled, free⟩
  | @backtrack n opened =>
      have hfree := (hlevel n (by simp [opened])).2
      exact GroundedLevels.opening hcut hbelow hfree (by simp) false

/-- A replay keeps the frames grounded, along the path that its entries lead to. -/
theorem groundedLevels_run (h : GroundedLevels f bs levels)
    (hrun : run f position entries (.running levels) = .ok (.running levels')) :
    GroundedLevels f (entries.foldl pathAfter bs) levels' := by
  -- the path at the end is the path here, continued by what is still to come
  refine (run_invariant (P := fun _ rest levels =>
    ∃ bs', rest.foldl pathAfter bs' = entries.foldl pathAfter bs ∧
      GroundedLevels f bs' levels) ?_ hrun ⟨bs, rfl, h⟩).elim fun _ hend => hend.1 ▸ hend.2
  rintro position entry rest levels mid hstep ⟨bs', hpath, h⟩
  exact ⟨pathAfter bs' entry, hpath, groundedLevels_step h hstep⟩

/-! ## Accepted beginnings -/

/-- The frames that are open after accepted entries, the shallowest first. Success leaves those up
to the depth at which it is reported. -/
inductive OpenFrames (f : Formula) : List Entry → List Assignment → Prop
  | running {entries : List Entry} {levels : List Level}
      (accepted : run f 0 entries start = .ok (.running levels)) :
      OpenFrames f entries (levels.map Level.frame)
  | succeeded {entries : List Entry} {levels : List Level} {depth : Int} {frame : Assignment}
      (before : run f 0 entries start = .ok (.running levels))
      (accepted : run f 0 (entries ++ [.event ⟨.allSatisfied, depth⟩]) start =
        .ok (.succeeded frame)) :
      OpenFrames f (entries ++ [.event ⟨.allSatisfied, depth⟩])
        ((levels.map Level.frame).take (depth.toNat + 1))

theorem path_append_singleton (entries : List Entry) (entry : Entry) :
    path (entries ++ [entry]) = pathAfter (path entries) entry := by
  rw [path, List.foldl_append]
  rfl

/-- Success is reported by the last entry, at a level whose frame satisfies the formula. -/
theorem exists_level_of_succeeded {frame : Assignment}
    (hrun : run f 0 entries start = .ok (.succeeded frame)) :
    ∃ first below level deeper, entries = first ++ [.event ⟨.allSatisfied, below.length⟩] ∧
      run f 0 first start = .ok (.running (below ++ level :: deeper)) ∧ level.frame = frame ∧
      f.satisfiedBy frame = true := by
  cases hlast : entries.getLast? with
  | none =>
      rw [List.getLast?_eq_none_iff.1 hlast] at hrun
      cases hrun
  | some entry =>
      obtain ⟨first, levels, rfl, hfirst, hstep⟩ := exists_last_step hrun hlast
      obtain ⟨action, below, level, deeper, rfl, rfl, -, hadmits⟩ := exists_admits_of_step hstep
      cases hadmits with
      | allSatisfied holds => exact ⟨first, below, level, deeper, rfl, hfirst, rfl, holds⟩

/-- After any accepted beginning of a trace the open frames are grounded in the path. If it ends in
a conflict, no model has the branches of the path; if it ends in success, every assignment above the
reporting frame is a model. -/
theorem exists_openFrames (h : run f 0 entries start = .ok final) :
    ∃ frames, OpenFrames f entries frames ∧ Grounded f (path entries) frames ∧
      (∀ i depth, entries.getLast? = some (.event ⟨.conflict i, depth⟩) →
        depth = (path entries).length ∧
          ∀ m, f.satisfiedBy m = true → ¬ m.Includes (path entries)) ∧
      ∀ frame, final = .succeeded frame →
        frames.getLast? = some frame ∧ ∀ m, frame ≤ m → f.satisfiedBy m = true := by
  cases final with
  | running levels =>
      have hgrounded : Grounded f (path entries) (levels.map Level.frame) :=
        (groundedLevels_run GroundedLevels.start h).grounded
      refine ⟨_, .running h, hgrounded, ?_, by simp⟩
      intro i depth hlast
      obtain ⟨below, level, hfinal, hdepth, c, hc, hfalse⟩ :=
        exists_falsified_of_getLast? h hlast rfl
      obtain rfl : depth = below.length := hdepth
      obtain rfl : levels = below ++ [level] := by simpa using hfinal
      rw [List.map_append, List.map_singleton] at hgrounded
      have hlen : below.length = (path entries).length := by simpa using hgrounded.length_eq
      refine ⟨congrArg Nat.cast hlen, ?_⟩
      intro m hm hincl
      have hle := hgrounded.le_of_includes hm hincl
      rw [Formula.satisfiedBy_of_falsified hc hfalse hle] at hm
      cases hm
  | succeeded frame =>
      obtain ⟨first, below, level, deeper, rfl, hfirst, rfl, holds⟩ := exists_level_of_succeeded h
      have hcut := (groundedLevels_run GroundedLevels.start hfirst).cut
      refine ⟨_, .succeeded hfirst h, ?_, by simp, ?_⟩
      · rw [path_append_singleton, Int.toNat_natCast, take_map_frame]
        exact hcut
      · rintro frame ⟨⟩
        rw [Int.toNat_natCast, take_map_frame]
        exact ⟨List.getLast?_concat, fun m hle => Formula.satisfiedBy_mono hle holds⟩

/-- The levels where `wandering` stands after its second conflict: a branch on a variable that the
formula does not have, and the second branch of another. -/
def wanderingLevels : List Level :=
  [⟨∅, some "Z"⟩, ⟨Assignment.empty.extend "Z" true, none⟩,
    ⟨((Assignment.empty.extend "Z" true).extend "A" false).extend "B" true, none⟩]

theorem exists_openFrames_wandering :
    run allClauses 0 (wandering.take 8) start = .ok (.running wanderingLevels) ∧
      ∃ frames, OpenFrames allClauses (wandering.take 8) frames ∧
        Grounded allClauses [("Z", true), ("A", false)] frames ∧
        ∀ m, allClauses.satisfiedBy m = true → ¬ m.Includes [("Z", true), ("A", false)] := by
  have hrun : run allClauses 0 (wandering.take 8) start = .ok (.running wanderingLevels) := by
    decide
  obtain ⟨frames, hopen, hgrounded, hconflict, -⟩ := exists_openFrames hrun
  exact ⟨hrun, frames, hopen, hgrounded, (hconflict 1 2 rfl).2⟩

end Replay

end DecisionTrace
