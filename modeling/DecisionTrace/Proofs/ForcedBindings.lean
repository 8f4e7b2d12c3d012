import DecisionTrace.Proofs.Propagation

/-!
# What a propagation binds

A propagation reports each binding that it makes. The assignment it returns is the one it started
from followed by the reported bindings, in their order, and each of these is of a name that was
free until then. At the returned assignment the formula is settled, and the bindings cost no model.
A propagation that returns nothing has falsified a clause by its bindings and reports this last.
`Formula.propagate_reports` is the main statement. It holds from any assignment, whatever names
that binds.

All of it is read off the chain of forced literals that a propagation is. The number of bindings is
bounded by the number of variables that were free, since no variable is bound twice.
-/

namespace DecisionTrace

/-! ## Bindings one after the other -/

namespace Assignment

variable {a b : Assignment} {bs : List (String × Bool)} {n : String} {v : Bool}

theorem bindings_extend (hfree : a.binds n = false) :
    (a.extend n v).bindings = a.bindings ++ [(n, v)] := by
  simp [extend, hfree]

/-- An assignment is another one followed by bindings of names that were free until then. -/
structure FollowedBy (a : Assignment) (bs : List (String × Bool)) (b : Assignment) : Prop where
  bindings_eq : b.bindings = a.bindings ++ bs
  free : ∀ before n v after, bs = before ++ (n, v) :: after →
    a.binds n = false ∧ n ∉ before.map Prod.fst

/-- That the names were free need not be shown, for no assignment binds a name twice. -/
theorem followedBy_of_bindings_eq (h : b.bindings = a.bindings ++ bs) : a.FollowedBy bs b := by
  refine ⟨h, ?_⟩
  rintro before n v after rfl
  have hnodup := b.distinct
  rw [h, List.map_append, List.map_append, ← List.append_assoc, List.nodup_append] at hnodup
  -- the name stands behind all bindings of `a` and of `before`
  have hn : n ∉ a.bindings.map Prod.fst ++ before.map Prod.fst :=
    fun hmem => hnodup.2.2 n hmem n (by simp) rfl
  rw [List.mem_append, not_or] at hn
  refine ⟨?_, hn.2⟩
  rw [← Bool.not_eq_true, binds_iff_mem_names]
  exact hn.1

end Assignment

/-- The binding that makes a literal true. -/
def Literal.binding (l : Literal) : String × Bool :=
  (l.name, l.satisfyingValue)

/-- The events of bindings that are propagated at one depth. -/
def propagationsAt (depth : Nat) (bs : List (String × Bool)) : List Event :=
  bs.map fun b => ⟨.propagate b.1 b.2, depth⟩

theorem map_propagation (depth : Nat) (ls : List Literal) :
    ls.map (Literal.propagation depth) = propagationsAt depth (ls.map Literal.binding) := by
  rw [propagationsAt, List.map_map]
  rfl

namespace Formula.Derives

variable {f : Formula} {a b : Assignment} {ls : List Literal}

/-- A chain appends the bindings of its literals. -/
theorem bindings_eq (h : f.Derives a ls b) :
    b.bindings = a.bindings ++ ls.map Literal.binding := by
  induction h with
  | refl a => simp
  | step _ unit _ ih =>
      rw [ih, Assignment.bindings_extend (Clause.mem_of_status_unit unit).2]
      simp [Literal.binding]

theorem followedBy (h : f.Derives a ls b) : a.FollowedBy (ls.map Literal.binding) b :=
  Assignment.followedBy_of_bindings_eq h.bindings_eq

/-- Each literal of a chain uses up a free variable. -/
theorem length_add_unbound_le (h : f.Derives a ls b) :
    ls.length + unbound f.names b ≤ unbound f.names a := by
  induction h with
  | refl a => simp
  | @step a b c l ls mem unit _ ih =>
      obtain ⟨hl, hfree⟩ := Clause.mem_of_status_unit unit
      have hname : l.name ∈ f.names := Formula.mem_names.2 ⟨c, mem, l, hl, rfl⟩
      have hlt : unbound f.names (a.extend l.name l.satisfyingValue) < unbound f.names a :=
        unbound_lt (fun w hw => by simp [hw]) hname hfree (by simp)
      rw [List.length_cons]
      omega

end Formula.Derives

/-! ## The reports of a propagation -/

/-- In a falsified clause every literal is false. -/
theorem Clause.evaluate_of_falsified {c : Clause} {a : Assignment} (h : c.status a = .falsified)
    {l : Literal} (hl : l ∈ c.literals) : l.evaluate a = some false := by
  obtain ⟨hs, hu⟩ := Clause.status_eq_falsified_iff.1 h
  have hb : a.binds l.name = true := by
    by_contra hb
    have hmem : l ∈ c.unassigned a := Clause.mem_unassigned.2 ⟨hl, by simpa using hb⟩
    rw [hu] at hmem
    cases hmem
  simp [Literal.evaluate, Clause.value?_of_not_satisfiedBy hs hl hb, Literal.satisfyingValue]

namespace Formula

variable {f : Formula} {depth : Nat} {a b : Assignment} {ls : List Literal}

/-- A propagation from one assignment returns another and reports these events. -/
structure ReportsSettled (f : Formula) (depth : Nat) (a : Assignment) (events : List Event)
    (b : Assignment) : Prop where
  /-- The events are the bindings that the returned assignment has after those of the first. -/
  reports : ∃ bs, events = propagationsAt depth bs ∧ a.FollowedBy bs b
  /-- Every clause has a true literal or at least two undecided ones. -/
  settled : f.Settled b
  /-- Every model above the first assignment is above the returned one. -/
  le_of_model : ∀ m, a ≤ m → f.satisfiedBy m = true → b ≤ m
  /-- Each event uses up a free variable of the formula. -/
  length_le : events.length + unbound f.names b ≤ unbound f.names a

/-- A propagation from an assignment returns nothing and reports these events. -/
structure ReportsConflict (f : Formula) (depth : Nat) (a : Assignment) (events : List Event) :
    Prop where
  /-- The events are bindings and then a conflict, at a clause whose literals are all false after
  these bindings. -/
  reports : ∃ bs b i c, events = propagationsAt depth bs ++ [⟨.conflict (i : Nat), depth⟩] ∧
    a.FollowedBy bs b ∧ f.clauses[i]? = some c ∧ ∀ l ∈ c.literals, l.evaluate b = some false
  /-- No model is above the assignment. -/
  no_model : ∀ m, a ≤ m → f.satisfiedBy m = false
  /-- Each event but the last uses up a free variable of the formula. -/
  length_le : events.length ≤ unbound f.names a + 1

theorem reportsSettled_of_derives (h : f.Derives a ls b) (hset : f.Settled b) :
    f.ReportsSettled depth a (ls.map (Literal.propagation depth)) b where
  reports := ⟨_, map_propagation depth ls, h.followedBy⟩
  settled := hset
  le_of_model _ ham hm := h.le_of_model hm ham
  length_le := by
    rw [List.length_map]
    exact h.length_add_unbound_le

theorem reportsConflict_of_derives {c : Clause} {i : Nat} (h : f.Derives a ls b)
    (hc : f.clauses[i]? = some c) (hs : c.status b = .falsified) :
    f.ReportsConflict depth a (ls.map (Literal.propagation depth) ++ [⟨.conflict i, depth⟩]) where
  reports := ⟨_, b, i, c, by rw [map_propagation], h.followedBy, hc,
    fun _ hl => Clause.evaluate_of_falsified hs hl⟩
  no_model m ham := by
    by_contra hm
    rw [Bool.not_eq_false] at hm
    have hbm := h.le_of_model hm ham
    rw [satisfiedBy_of_falsified (List.mem_of_getElem? hc) hs hbm] at hm
    cases hm
  length_le := by
    have hlen := h.length_add_unbound_le
    rw [List.length_append, List.length_map, List.length_singleton]
    omega

/-- A propagation that returns an assignment has settled the formula there by the bindings it
reports, and one that returns nothing has refuted the assignment it started from. -/
theorem propagate_reports (f : Formula) (depth : Nat) (a : Assignment) :
    match (propagate f depth a).result with
    | some b => f.ReportsSettled depth a (propagate f depth a).events b
    | none => f.ReportsConflict depth a (propagate f depth a).events := by
  rcases propagate_spec f depth a with ⟨ls, b, hd, hset, hp⟩ | ⟨ls, b, i, c, hd, hc, hs, hp⟩
  · rw [hp]
    exact reportsSettled_of_derives hd hset
  · rw [hp]
    exact reportsConflict_of_derives hd hc hs

end Formula

end DecisionTrace
