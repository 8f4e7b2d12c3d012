import DecisionTrace.Proofs.ForcedBindings
import DecisionTrace.Proofs.SearchTree

/-!
# The grammar of traces

The trace of a search is a word of a small grammar, whose one nonterminal is the frame at a depth
below the bindings of a path. A frame reports its propagations, each of which makes the path longer.
Then it ends in a conflict or in success, or it attempts the first variable that the path leaves
unbound, and backtracks if the frame below fails. `FrameWord` is that grammar; it speaks of events
only and knows neither the formula nor the search. A word that succeeds carries the bindings along
the path to its successful leaf. What failed frames have bound is not among them.

A word has one reading (`FrameWord.append_inj`), so the path to the leaf is a property of the trace.
`Formula.frameWord_solve_iff` says that the trace of a search is such a word, and that the bindings
of the satisfying snapshot, in their order, are those along the path.
-/

namespace DecisionTrace

/-! ## Words -/

/-- The first name of an order that a list of bindings does not bind. -/
def firstUnbound? (order : List String) (path : List (String × Bool)) : Option String :=
  order.find? fun v => v ∉ path.map Prod.fst

/-- The words of a frame at a depth, from the bindings of a path on. The last argument is the path
to the leaf at which every clause is satisfied, and none for a frame that fails. -/
inductive FrameWord (order : List String) : (depth : Nat) → (path : List (String × Bool)) →
    List Event → Option (List (String × Bool)) → Prop
  /-- A propagation comes first. -/
  | propagated {depth : Nat} {path : List (String × Bool)} {n : String} {v : Bool}
      {rest : List Event} {leaf : Option (List (String × Bool))}
      (continues : FrameWord order depth (path ++ [(n, v)]) rest leaf) :
      FrameWord order depth path (⟨.propagate n v, depth⟩ :: rest) leaf
  /-- A conflict ends the frame. -/
  | failed {depth : Nat} {path : List (String × Bool)} (clause : Int) :
      FrameWord order depth path [⟨.conflict clause, depth⟩] none
  /-- Success ends the frame. -/
  | satisfied {depth : Nat} {path : List (String × Bool)} :
      FrameWord order depth path [⟨.allSatisfied, depth⟩] (some path)
  /-- The attempt of a variable succeeds. -/
  | found {depth : Nat} {path leaf : List (String × Bool)} {v : String} {first : List Event}
      (unbound : firstUnbound? order path = some v)
      (succeeds : FrameWord order (depth + 1) (path ++ [(v, true)]) first (some leaf)) :
      FrameWord order depth path (⟨.branch .attempt v true, depth⟩ :: first) (some leaf)
  /-- The attempt of a variable fails, and the frame succeeds if its other value does. -/
  | backtracked {depth : Nat} {path : List (String × Bool)} {v : String}
      {first second : List Event} {leaf : Option (List (String × Bool))}
      (unbound : firstUnbound? order path = some v)
      (fails : FrameWord order (depth + 1) (path ++ [(v, true)]) first none)
      (decides : FrameWord order (depth + 1) (path ++ [(v, false)]) second leaf) :
      FrameWord order depth path
        (⟨.branch .attempt v true, depth⟩ ::
          (first ++ ⟨.branch .backtrack v false, depth⟩ :: second)) leaf

/-! ## One reading -/

/-- No word of a frame is the beginning of another, and each leads to one leaf. -/
theorem FrameWord.append_inj {order : List String} {depth : Nat} {path : List (String × Bool)}
    {w w' rest rest' : List Event} {leaf leaf' : Option (List (String × Bool))}
    (h : FrameWord order depth path w leaf) (h' : FrameWord order depth path w' leaf')
    (heq : w ++ rest = w' ++ rest') : w = w' ∧ leaf = leaf' ∧ rest = rest' := by
  -- the first event tells the rule, but for an attempt, where the result of its subtree does
  induction h generalizing w' leaf' rest rest' with
  | propagated _ ih =>
      cases h' with
      | propagated continues =>
          simp only [List.cons_append, List.cons.injEq, Event.mk.injEq, Action.propagate.injEq,
            and_true] at heq
          obtain ⟨⟨rfl, rfl⟩, heq⟩ := heq
          obtain ⟨rfl, rfl, rfl⟩ := ih continues heq
          exact ⟨rfl, rfl, rfl⟩
      | _ => simp at heq
  | failed clause =>
      cases h' with
      | failed clause' =>
          simp only [List.cons_append, List.nil_append, List.cons.injEq, Event.mk.injEq,
            Action.conflict.injEq, and_true] at heq
          obtain ⟨rfl, rfl⟩ := heq
          exact ⟨rfl, rfl, rfl⟩
      | _ => simp at heq
  | satisfied =>
      cases h' with
      | satisfied => simpa using heq
      | _ => simp at heq
  | found _ _ ih =>
      cases h' with
      | found _ succeeds =>
          simp only [List.cons_append, List.cons.injEq, Event.mk.injEq, Action.branch.injEq,
            and_true, true_and] at heq
          obtain ⟨rfl, heq⟩ := heq
          obtain ⟨rfl, hleaf, rfl⟩ := ih succeeds heq
          exact ⟨rfl, hleaf, rfl⟩
      | backtracked _ fails _ =>
          simp only [List.cons_append, List.append_assoc, List.cons.injEq, Event.mk.injEq,
            Action.branch.injEq, and_true, true_and] at heq
          obtain ⟨rfl, heq⟩ := heq
          cases (ih fails heq).2.1
      | _ => simp at heq
  | backtracked _ _ _ ih₁ ih₂ =>
      cases h' with
      | found _ succeeds =>
          simp only [List.cons_append, List.append_assoc, List.cons.injEq, Event.mk.injEq,
            Action.branch.injEq, and_true, true_and] at heq
          obtain ⟨rfl, heq⟩ := heq
          cases (ih₁ succeeds heq).2.1
      | backtracked _ fails decides =>
          simp only [List.cons_append, List.append_assoc, List.cons.injEq, Event.mk.injEq,
            Action.branch.injEq, and_true, true_and] at heq
          obtain ⟨rfl, heq⟩ := heq
          obtain ⟨rfl, -, heq⟩ := ih₁ fails heq
          obtain ⟨rfl, rfl, rfl⟩ := ih₂ decides (List.cons.inj heq).2
          exact ⟨rfl, rfl, rfl⟩
      | _ => simp at heq

theorem FrameWord.leaf_unique {order : List String} {depth : Nat} {path : List (String × Bool)}
    {w : List Event} {leaf leaf' : Option (List (String × Bool))}
    (h : FrameWord order depth path w leaf) (h' : FrameWord order depth path w leaf') :
    leaf = leaf' := by
  have heq : w ++ [] = w ++ [] := rfl
  exact (h.append_inj h' heq).2.1

/-! ## The words of searches -/

theorem firstUnbound?_bindings (order : List String) (a : Assignment) :
    firstUnbound? order a.bindings = firstFree? order a := by
  unfold firstUnbound? firstFree?
  congr 1
  funext v
  rw [Bool.eq_iff_iff, decide_eq_true_eq, Bool.not_eq_true', ← Bool.not_eq_true,
    Assignment.binds_iff_mem_names]
  rfl

/-- The propagations of a chain come before the words of a frame. -/
theorem FrameWord.after_derives {f : Formula} {order : List String} {depth : Nat}
    {a b : Assignment} {ls : List Literal} {rest : List Event}
    {leaf : Option (List (String × Bool))} (h : f.Derives a ls b)
    (k : FrameWord order depth b.bindings rest leaf) :
    FrameWord order depth a.bindings (ls.map (Literal.propagation depth) ++ rest) leaf := by
  induction h with
  | refl a => exact k
  | step _ unit _ ih =>
      have hrest := ih k
      rw [Assignment.bindings_extend (Clause.mem_of_status_unit unit).2] at hrest
      exact .propagated hrest

/-- What a search does is told by a word of its first frame. -/
theorem Explored.frameWord {f : Formula} {order : List String} {depth : Nat} {a : Assignment}
    {d : Finding} (h : Explored f order depth a d) :
    FrameWord order depth a.bindings d.events (d.model.map Assignment.bindings) := by
  induction h with
  | failed chain clause falsified =>
      simp only [Finding.leaf, Propagation.failed, List.append_nil]
      exact .after_derives chain (.failed _)
  | satisfied chain settled holds =>
      exact .after_derives chain .satisfied
  | found chain settled undecided free left model ih =>
      rw [Assignment.bindings_extend (free_of_firstFree? free).2, model] at ih
      rw [← firstUnbound?_bindings] at free
      rw [Finding.found, model]
      exact .after_derives chain (.found free ih)
  | backtracked chain settled undecided free left refuted right ih₁ ih₂ =>
      rw [Assignment.bindings_extend (free_of_firstFree? free).2, refuted] at ih₁
      rw [Assignment.bindings_extend (free_of_firstFree? free).2] at ih₂
      rw [← firstUnbound?_bindings] at free
      exact .after_derives chain (.backtracked free ih₁ ih₂)

/-- The satisfying snapshot of an answer. -/
def Verdict.snapshot? : Verdict → Option Assignment
  | .satisfiable _ snapshot => some snapshot
  | .unsatisfiable => none

theorem Formula.snapshot?_solve (f : Formula) :
    f.solve.verdict.snapshot? = (search f f.names 0 ∅).model := by
  rw [solve]
  cases (search f f.names 0 ∅).model <;> rfl

/-- The trace of a search is a word of a frame, and it can be read as such with one leaf only. The
path to this leaf binds what the satisfying snapshot binds, in the same order. -/
theorem Formula.frameWord_solve_iff (f : Formula) (leaf : Option (List (String × Bool))) :
    FrameWord f.names 0 [] f.solve.trace leaf ↔
      leaf = f.solve.verdict.snapshot?.map Assignment.bindings := by
  have hword : FrameWord f.names 0 [] f.solve.trace
      (f.solve.verdict.snapshot?.map Assignment.bindings) := by
    rw [snapshot?_solve]
    exact (explored_solve f).frameWord
  constructor
  · intro h
    exact h.leaf_unique hword
  · rintro rfl
    exact hword

end DecisionTrace
