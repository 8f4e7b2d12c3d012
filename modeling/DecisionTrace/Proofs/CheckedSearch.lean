import DecisionTrace.Proofs.SearchTree

/-!
# A search with every check on

A search binds names without asking whether they are free, and has no answer of its own for a
frame in which no variable is left to branch on. `checkedSearch` is the same search with these
questions asked. Every binding goes through `Assignment.bind`, which may refuse it, and only free
variables of the formula may be bound at all. A frame that has to branch and finds no variable is a
fault, and so is a frame that is deeper than the number of variables bound in it.

No check ever fails: `Formula.checkedSearch_solve` says that the checked search of a formula ends,
and with what the search finds. A frame has at least as many variables bound as it is deep, because
the propagations of the frame above it forget none and the branch binds one more. The depth of a
search is therefore bounded by the number of variables.
-/

namespace DecisionTrace

/-! ## Checks -/

/-- What can go wrong in a search. -/
inductive Fault where
  /-- A bound name is to be bound to its other value. -/
  | refused (e : BindConflict)
  /-- A name is to be bound that is bound already or is no variable of the formula. -/
  | notFree (name : String)
  /-- No variable is left to branch on. -/
  | nothingFree
  /-- A frame binds fewer variables than it is deep. -/
  | tooDeep (depth : Nat)
deriving DecidableEq

/-- How many variables of a formula an assignment binds. -/
def Formula.boundCount (f : Formula) (a : Assignment) : Nat :=
  f.names.countP fun v => a.binds v

/-- To bind a name that has to be a free variable of the formula. -/
def Formula.checkedBind (f : Formula) (a : Assignment) (name : String) (value : Bool) :
    Except Fault Assignment :=
  if name ∈ f.names ∧ a.binds name = false then (a.bind name value).mapError .refused
  else .error (.notFree name)

/-- A result together with the equation that it comes from. The recursions below end because they
know what a checked step has given back. -/
def withOrigin {α : Type} (x : Except Fault α) : Except Fault { a : α // x = .ok a } :=
  match x with
  | .error fault => .error fault
  | .ok a => .ok ⟨a, rfl⟩

theorem withOrigin_bind {α β : Type} {x : Except Fault α} {a : α} (h : x = .ok a)
    (g : { a : α // x = .ok a } → Except Fault β) : (withOrigin x >>= g) = g ⟨a, h⟩ := by
  subst h
  rfl

section Bindings

variable {f : Formula} {a b : Assignment} {name : String} {value : Bool}

theorem Formula.boundCount_add_unbound (f : Formula) (a : Assignment) :
    f.boundCount a + unbound f.names a = f.names.length := by
  rw [boundCount, unbound, ← List.countP_eq_length_filter,
    List.length_eq_countP_add_countP fun v => a.binds v]
  simp

theorem Assignment.bind_of_free (h : a.binds name = false) (value : Bool) :
    a.bind name value = .ok (a.extend name value) := by
  rw [Assignment.bind, Assignment.binds_eq_false_iff.1 h]

theorem Formula.checkedBind_of_free (hn : name ∈ f.names) (h : a.binds name = false)
    (value : Bool) : f.checkedBind a name value = .ok (a.extend name value) := by
  rw [checkedBind, if_pos ⟨hn, h⟩, Assignment.bind_of_free h, Except.mapError]

theorem Formula.eq_extend_of_checkedBind (h : f.checkedBind a name value = .ok b) :
    b = a.extend name value := by
  by_cases hfree : name ∈ f.names ∧ a.binds name = false
  · rw [checkedBind_of_free hfree.1 hfree.2] at h
    exact (Except.ok.inj h).symm
  · rw [checkedBind, if_neg hfree] at h
    cases h

end Bindings

/-! ## Checked propagation -/

/-- A sweep whose bindings are checked. -/
def checkedSweep (f : Formula) (depth : Nat) :
    (index : Nat) → List Clause → Assignment → Except Fault Propagation
  | _, [], a => .ok { result := some a }
  | index, c :: cs, a =>
    match c.status a with
    | .satisfied => checkedSweep f depth (index + 1) cs a
    | .unresolved => checkedSweep f depth (index + 1) cs a
    | .falsified => .ok (.conflict depth index)
    | .unit l => do
      let b ← f.checkedBind a l.name l.satisfyingValue
      let rest ← checkedSweep f depth (index + 1) cs b
      return (Propagation.step depth l a).followedBy rest

/-- A sweep over clauses of the formula binds free variables of the formula only. -/
theorem checkedSweep_eq {f : Formula} {cs : List Clause} (hcs : cs ⊆ f.clauses)
    (depth index : Nat) (a : Assignment) :
    checkedSweep f depth index cs a = .ok (sweep depth index cs a) := by
  induction cs generalizing index a with
  | nil => rfl
  | cons c cs ih =>
      obtain ⟨hc, hcs⟩ := List.cons_subset.1 hcs
      rw [checkedSweep, sweep]
      cases hst : c.status a with
      | satisfied => exact ih hcs _ _
      | unresolved => exact ih hcs _ _
      | falsified => rfl
      | unit l =>
          obtain ⟨hl, hfree⟩ := Clause.mem_of_status_unit hst
          have hname : l.name ∈ f.names := Formula.mem_names.2 ⟨c, hc, l, hl, rfl⟩
          simp only [Formula.checkedBind_of_free hname hfree, ih hcs]
          rfl

/-- Unit propagation whose bindings are checked. -/
def checkedPropagate (f : Formula) (depth : Nat) (a : Assignment) : Except Fault Propagation := do
  let ⟨p, _hs⟩ ← withOrigin (checkedSweep f depth 0 f.clauses a)
  match _hb : p.result with
  | none => return p
  | some b =>
    if _he : p.events = [] then return p
    else
      let rest ← checkedPropagate f depth b
      return p.followedBy rest
termination_by unbound f.names a
decreasing_by
  rw [checkedSweep_eq (List.Subset.refl _)] at _hs
  obtain rfl := Except.ok.inj _hs
  exact unbound_lt_of_sweep _hb _he

/-- Propagation binds free variables of the formula only. -/
theorem checkedPropagate_eq (f : Formula) (depth : Nat) (a : Assignment) :
    checkedPropagate f depth a = .ok (propagate f depth a) := by
  fun_induction propagate f depth a with
  | case1 a hnone =>
      rw [checkedPropagate, withOrigin_bind (checkedSweep_eq (List.Subset.refl _) depth 0 a)]
      dsimp only
      split
      · rfl
      · next h => rw [hnone] at h; cases h
  | case2 a b hsome hquiet =>
      rw [checkedPropagate, withOrigin_bind (checkedSweep_eq (List.Subset.refl _) depth 0 a)]
      dsimp only
      split
      · rfl
      · rw [dif_pos hquiet]
        rfl
  | case3 a b hsome hbusy ih =>
      rw [checkedPropagate, withOrigin_bind (checkedSweep_eq (List.Subset.refl _) depth 0 a)]
      dsimp only
      split
      · next h => rw [hsome] at h; cases h
      · next d h =>
        obtain rfl : b = d := Option.some.inj (hsome.symm.trans h)
        rw [dif_neg hbusy, ih]
        rfl

/-! ## Checked search -/

/-- The search with its bindings, its choices of a variable and its depth checked. -/
def checkedSearch (f : Formula) (depth : Nat) (a : Assignment) : Except Fault Finding := do
  if f.boundCount a < depth then throw (.tooDeep depth)
  let ⟨p, _hp⟩ ← withOrigin (checkedPropagate f depth a)
  match _hb : p.result with
  | none => return .leaf depth p [] none
  | some b =>
    if f.satisfiedBy b then return .leaf depth p [⟨.allSatisfied, depth⟩] (some b)
    else
      match _hv : firstFree? f.names b with
      | none => throw .nothingFree
      | some v =>
        let ⟨whenTrue, _ht⟩ ← withOrigin (f.checkedBind b v true)
        let first ← checkedSearch f (depth + 1) whenTrue
        match first.model with
        | some _ => return .found depth p v first
        | none =>
          let ⟨whenFalse, _hf⟩ ← withOrigin (f.checkedBind b v false)
          let second ← checkedSearch f (depth + 1) whenFalse
          return .backtracked depth p v first second
termination_by unbound f.names a
decreasing_by
  all_goals
    rw [checkedPropagate_eq] at _hp
    obtain rfl := Except.ok.inj _hp
  · rw [Formula.eq_extend_of_checkedBind _ht]
    exact unbound_extend_lt _hb _hv true
  · rw [Formula.eq_extend_of_checkedBind _hf]
    exact unbound_extend_lt _hb _hv false

/-- One frame passes its own checks, if its depth does. -/
theorem checkedSearch_frame {f : Formula} {depth : Nat} {a : Assignment}
    (hdepth : depth ≤ f.boundCount a) :
    checkedSearch f depth a =
      match (propagate f depth a).result with
      | none => .ok (.leaf depth (propagate f depth a) [] none)
      | some b =>
        if f.satisfiedBy b then
          .ok (.leaf depth (propagate f depth a) [⟨.allSatisfied, depth⟩] (some b))
        else
          match firstFree? f.names b with
          | none => .error .nothingFree
          | some v => do
            let first ← checkedSearch f (depth + 1) (b.extend v true)
            match first.model with
            | some _ => return .found depth (propagate f depth a) v first
            | none =>
              let second ← checkedSearch f (depth + 1) (b.extend v false)
              return .backtracked depth (propagate f depth a) v first second := by
  rw [checkedSearch, if_neg (by omega)]
  simp only [withOrigin_bind (checkedPropagate_eq f depth a)]
  split
  · next hb => rw [hb]; rfl
  · next b hb =>
    simp only [hb]
    split
    · rfl
    · split
      · next hv => simp only [hv]; rfl
      · next v hv =>
        obtain ⟨hn, hfree⟩ := free_of_firstFree? hv
        have hbind := Formula.checkedBind_of_free hn hfree
        simp only [hv, withOrigin_bind (hbind true), withOrigin_bind (hbind false)]

/-- A frame below a branch binds one more variable than the frame above it. -/
theorem boundCount_branch {f : Formula} {depth : Nat} {a b : Assignment} {v : String}
    (hb : (propagate f depth a).result = some b) (hv : firstFree? f.names b = some v)
    (value : Bool) : f.boundCount a < f.boundCount (b.extend v value) := by
  have hlt := unbound_extend_lt hb hv value
  have ha := f.boundCount_add_unbound a
  have hb := f.boundCount_add_unbound (b.extend v value)
  omega

/-- A search whose first frame is not too deep passes all checks, and finds what it finds without
them. -/
theorem checkedSearch_eq {f : Formula} {depth : Nat} {a : Assignment}
    (hdepth : depth ≤ f.boundCount a) :
    checkedSearch f depth a = .ok (search f f.names depth a) := by
  fun_induction search f f.names depth a with
  | case1 depth a hnone => rw [checkedSearch_frame hdepth, hnone]
  | case2 depth a b hsome hs => simp only [checkedSearch_frame hdepth, hsome, hs, if_true]
  | case3 depth a b hsome hs hnone =>
      -- a settled formula that is not satisfied has a free variable
      obtain ⟨ls, -, hset, -⟩ := settled_of_result hsome
      obtain ⟨v, hv⟩ := exists_firstFree? (List.Subset.refl _) hset (by simpa using hs)
      rw [hnone] at hv
      cases hv
  | case4 depth a b hsome hs v hv first m hm ih =>
      have ht := boundCount_branch hsome hv true
      simp only [checkedSearch_frame hdepth, hsome, hs, hv, Bool.false_eq_true, if_false]
      rw [ih (by omega)]
      change (match first.model with | some _ => _ | none => _) = _
      rw [hm]
      rfl
  | case5 depth a b hsome hs v hv first hm ih₁ ih₂ =>
      have ht := boundCount_branch hsome hv true
      have hf := boundCount_branch hsome hv false
      simp only [checkedSearch_frame hdepth, hsome, hs, hv, Bool.false_eq_true, if_false]
      rw [ih₁ (by omega), ih₂ (by omega)]
      change (match first.model with | some _ => _ | none => _) = _
      rw [hm]
      rfl

/-! ## Depth -/

theorem unbound_anti {order : List String} {a b : Assignment} (h : a ≤ b) :
    unbound order b ≤ unbound order a := by
  apply unbound_le
  intro n hn
  obtain ⟨v, hv⟩ := Option.isSome_iff_exists.1 hn
  exact Assignment.binds_of_value? (Assignment.value?_of_le h hv)

/-- The frame below a branch has fewer free variables than the frame above it. -/
theorem Formula.Derives.unbound_branch_lt {f : Formula} {order : List String} {a b : Assignment}
    {ls : List Literal} {v : String} (h : f.Derives a ls b) (hv : firstFree? order b = some v)
    (value : Bool) : unbound order (b.extend v value) < unbound order a := by
  obtain ⟨hmem, hfree⟩ := free_of_firstFree? hv
  calc unbound order (b.extend v value)
      < unbound order b := unbound_lt (fun w hw => by simp [hw]) hmem hfree (by simp)
    _ ≤ unbound order a := unbound_anti h.le

/-- A frame and those below it reach no deeper than the free variables allow. -/
theorem Explored.maxDepth_le {f : Formula} {order : List String} {depth : Nat} {a : Assignment}
    {d : Finding} (h : Explored f order depth a d) :
    d.stats.maxDepth ≤ depth + unbound order a := by
  induction h with
  | failed => simp [Finding.leaf, Propagation.failed, Stats.merge]
  | satisfied => simp [Finding.leaf, Propagation.settled, Stats.merge]
  | found chain _ _ free _ _ ih =>
      have hlt := chain.unbound_branch_lt free true
      simp only [Finding.found, Propagation.settled, Stats.merge]
      omega
  | backtracked chain _ _ free _ _ _ ih₁ ih₂ =>
      have ht := chain.unbound_branch_lt free true
      have hf := chain.unbound_branch_lt free false
      simp only [Finding.backtracked, Propagation.settled, Stats.merge]
      omega

/-- No check of a search ever fails, and its depth is at most the number of variables. -/
theorem Formula.checkedSearch_solve (f : Formula) :
    checkedSearch f 0 ∅ = .ok (search f f.names 0 ∅) ∧
      f.solve.stats.maxDepth ≤ f.names.length := by
  refine ⟨checkedSearch_eq (Nat.zero_le _), ?_⟩
  have hdepth := (explored_solve f).maxDepth_le
  have hcount := f.boundCount_add_unbound ∅
  simp only [solve]
  omega

end DecisionTrace
