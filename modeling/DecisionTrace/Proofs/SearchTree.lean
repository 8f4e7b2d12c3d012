import DecisionTrace.Search
import DecisionTrace.Proofs.Propagation

/-!
# The tree of a search

`Explored` tells the runs of a search by their shape: a frame fails, or every clause is satisfied,
or the first branch holds a model, or both branches are taken. Each frame comes with the chain of
literals it has bound. `explored_search` says that every search is such a tree. That a frame finds
no variable to branch on is not among the cases, for a settled formula that is not satisfied has a
free one.

What is true of all searches is proved by induction over the tree, one case for each shape.
-/

namespace DecisionTrace

/-! ## The shapes of a frame -/

/-- What a search below an assignment can come to, frame by frame. -/
inductive Explored (f : Formula) (order : List String) : Nat → Assignment → Finding → Prop
  /-- Propagation has falsified a clause. -/
  | failed {depth i : Nat} {a b : Assignment} {ls : List Literal} {c : Clause}
      (chain : f.Derives a ls b) (clause : f.clauses[i]? = some c)
      (falsified : c.status b = .falsified) :
      Explored f order depth a (.leaf depth (.failed depth ls i) [] none)
  /-- Propagation has left every clause satisfied. -/
  | satisfied {depth : Nat} {a b : Assignment} {ls : List Literal}
      (chain : f.Derives a ls b) (settled : f.Settled b) (holds : f.satisfiedBy b = true) :
      Explored f order depth a
        (.leaf depth (.settled depth ls b) [⟨.allSatisfied, depth⟩] (some b))
  /-- The first branch holds a model. -/
  | found {depth : Nat} {a b m : Assignment} {ls : List Literal} {v : String} {first : Finding}
      (chain : f.Derives a ls b) (settled : f.Settled b) (undecided : f.satisfiedBy b = false)
      (free : firstFree? order b = some v)
      (left : Explored f order (depth + 1) (b.extend v true) first) (model : first.model = some m) :
      Explored f order depth a (.found depth (.settled depth ls b) v first)
  /-- The first branch holds no model, and the second decides. -/
  | backtracked {depth : Nat} {a b : Assignment} {ls : List Literal} {v : String}
      {first second : Finding}
      (chain : f.Derives a ls b) (settled : f.Settled b) (undecided : f.satisfiedBy b = false)
      (free : firstFree? order b = some v)
      (left : Explored f order (depth + 1) (b.extend v true) first) (refuted : first.model = none)
      (right : Explored f order (depth + 1) (b.extend v false) second) :
      Explored f order depth a (.backtracked depth (.settled depth ls b) v first second)

/-- A settled formula that is not satisfied leaves a name of the order to branch on, if the order
has all its variables. -/
theorem exists_firstFree? {f : Formula} {order : List String} {b : Assignment}
    (horder : f.names ⊆ order) (hset : f.Settled b) (hs : f.satisfiedBy b = false) :
    ∃ v, firstFree? order b = some v := by
  obtain ⟨n, hn, hfree⟩ := Formula.exists_free_of_settled hset hs
  have hsome : (order.find? fun v => !b.binds v).isSome = true := by
    rw [List.find?_isSome]
    exact ⟨n, horder hn, by simp [hfree]⟩
  exact Option.isSome_iff_exists.1 hsome

/-- Every search is a tree of the described shape. -/
theorem explored_search {f : Formula} {order : List String} (horder : f.names ⊆ order)
    (depth : Nat) (a : Assignment) : Explored f order depth a (search f order depth a) := by
  fun_induction search f order depth a with
  | case1 depth a hnone =>
      rcases propagate_spec f depth a with ⟨_, _, -, -, hp⟩ | ⟨ls, b, i, c, hd, hc, hs, hp⟩
      · rw [hp] at hnone
        cases hnone
      · rw [hp]
        exact .failed hd hc hs
  | case2 depth a b hsome hs =>
      obtain ⟨ls, hd, hset, hp⟩ := settled_of_result hsome
      rw [hp]
      exact .satisfied hd hset hs
  | case3 depth a b hsome hs hnone =>
      obtain ⟨ls, hd, hset, hp⟩ := settled_of_result hsome
      obtain ⟨v, hv⟩ := exists_firstFree? horder hset (by simpa using hs)
      rw [hv] at hnone
      cases hnone
  | case4 depth a b hsome hs v hv first m hm ih =>
      obtain ⟨ls, hd, hset, hp⟩ := settled_of_result hsome
      rw [hp]
      exact .found hd hset (by simpa using hs) hv ih hm
  | case5 depth a b hsome hs v hv first hm ih₁ ih₂ =>
      obtain ⟨ls, hd, hset, hp⟩ := settled_of_result hsome
      rw [hp]
      exact .backtracked hd hset (by simpa using hs) hv ih₁ hm ih₂

/-- What holds of every event that a frame can contribute holds of every event of a search. -/
theorem Explored.forall_events {f : Formula} {order : List String} {depth : Nat} {a : Assignment}
    {d : Finding} {P : Event → Prop} (h : Explored f order depth a d)
    (propagation : ∀ (depth : Nat) (l : Literal), l.name ∈ f.names → P (l.propagation depth))
    (conflict : ∀ depth i : Nat, i < f.size → P ⟨.conflict i, depth⟩)
    (success : ∀ depth : Nat, P ⟨.allSatisfied, depth⟩)
    (branch : ∀ (depth : Nat) (kind : BranchKind) (name : String) (value : Bool), name ∈ order →
      P ⟨.branch kind name value, depth⟩) :
    ∀ e ∈ d.events, P e := by
  have hchain : ∀ {a b : Assignment} {ls : List Literal} (depth : Nat), f.Derives a ls b →
      ∀ e ∈ ls.map (Literal.propagation depth), P e := by
    intro a b ls depth chain
    rw [List.forall_mem_map]
    exact fun l hl => propagation depth l (chain.mem_names_of_mem hl)
  induction h with
  | @failed depth i a b ls c chain clause falsified =>
      simp only [Finding.leaf, Propagation.failed, List.append_nil, List.forall_mem_append,
        List.forall_mem_singleton]
      exact ⟨hchain depth chain, conflict depth i (List.getElem?_eq_some_iff.1 clause).1⟩
  | @satisfied depth a b ls chain settled holds =>
      simp only [Finding.leaf, Propagation.settled, List.forall_mem_append,
        List.forall_mem_singleton]
      exact ⟨hchain depth chain, success depth⟩
  | @found depth a b m ls v first chain settled undecided free left model ih =>
      have hv := (free_of_firstFree? free).1
      simp only [Finding.found, Propagation.settled, List.forall_mem_append, List.forall_mem_cons]
      exact ⟨hchain depth chain, branch depth _ v true hv, ih⟩
  | @backtracked depth a b ls v first second chain settled undecided free left refuted right ih₁
      ih₂ =>
      have hv := (free_of_firstFree? free).1
      simp only [Finding.backtracked, Propagation.settled, List.forall_mem_append,
        List.forall_mem_cons]
      exact ⟨hchain depth chain, branch depth _ v true hv, ih₁, branch depth _ v false hv, ih₂⟩

/-- The search that answers for a formula. -/
theorem explored_solve (f : Formula) : Explored f f.names 0 ∅ (search f f.names 0 ∅) :=
  explored_search (List.Subset.refl _) 0 ∅

end DecisionTrace
