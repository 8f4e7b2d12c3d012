import DecisionTrace.Clause.Reader
import DecisionTrace.Log
import DecisionTrace.Search.Propagation

/-!
# Searching for a model

The search is plain DPLL. A frame propagates; if no clause failed and not every clause is
satisfied, it branches on the first free variable of a given order, first to true and, when that
subtree holds no model, to false. Every step is told as an event and counted.

The recursion ends because a frame's children have fewer free variables: propagation forgets no
binding (`binds_of_propagate`) and the branch binds one more. No limit on depth or steps is needed,
and the answer is never "unknown".
-/

namespace DecisionTrace

/-- The first name of an order that an assignment leaves free. -/
def firstFree? (order : List String) (a : Assignment) : Option String :=
  order.find? fun v => !a.binds v

theorem free_of_firstFree? {order : List String} {a : Assignment} {v : String}
    (h : firstFree? order a = some v) : v ∈ order ∧ a.binds v = false := by
  have h₁ := List.mem_of_find?_eq_some h
  have h₂ := List.find?_some h
  exact ⟨h₁, by simpa using h₂⟩

/-- Binding the first free name after a propagation leaves fewer names free. -/
theorem unbound_extend_lt {f : Formula} {order : List String} {depth : Nat} {a b : Assignment}
    {v : String} (hp : (propagate f depth a).result = some b) (hv : firstFree? order b = some v)
    (value : Bool) : unbound order (b.extend v value) < unbound order a := by
  obtain ⟨hm, hfree⟩ := free_of_firstFree? hv
  have h₁ : unbound order (b.extend v value) < unbound order b :=
    unbound_lt (fun w hw => by simp [hw]) hm hfree (by simp)
  have h₂ : unbound order b ≤ unbound order a := unbound_le fun w hw => binds_of_propagate hp hw
  omega

/-- What a part of a search tree came to: what happened, how often, and the satisfying snapshot if
there is one. -/
structure Finding where
  events : List Event
  stats : Stats
  model : Option Assignment
deriving DecidableEq

namespace Finding

/-- The finding of a frame that ends without branching. -/
def leaf (depth : Nat) (p : Propagation) (last : List Event) (model : Option Assignment) :
    Finding where
  events := p.events ++ last
  stats := p.stats.merge { maxDepth := depth }
  model := model

/-- The finding of a frame whose first branch holds a model. -/
def found (depth : Nat) (p : Propagation) (v : String) (first : Finding) : Finding where
  events := p.events ++ ⟨.branch .attempt v true, depth⟩ :: first.events
  stats := (p.stats.merge { decisions := 1, maxDepth := depth }).merge first.stats
  model := first.model

/-- The finding of a frame that had to backtrack. -/
def backtracked (depth : Nat) (p : Propagation) (v : String) (first second : Finding) :
    Finding where
  events := p.events ++ ⟨.branch .attempt v true, depth⟩ ::
    (first.events ++ ⟨.branch .backtrack v false, depth⟩ :: second.events)
  stats := ((p.stats.merge { decisions := 1, backtracks := 1, maxDepth := depth }).merge
    first.stats).merge second.stats
  model := second.model

end Finding

/-- The search below an assignment, branching in the given order. -/
def search (f : Formula) (order : List String) (depth : Nat) (a : Assignment) : Finding :=
  match _hp : (propagate f depth a).result with
  | none => .leaf depth (propagate f depth a) [] none
  | some b =>
    if f.satisfiedBy b then
      .leaf depth (propagate f depth a) [⟨.allSatisfied, depth⟩] (some b)
    else
      match _hv : firstFree? order b with
      | none => .leaf depth (propagate f depth a) [] none
      | some v =>
        let first := search f order (depth + 1) (b.extend v true)
        match first.model with
        | some _ => .found depth (propagate f depth a) v first
        | none =>
          .backtracked depth (propagate f depth a) v first
            (search f order (depth + 1) (b.extend v false))
termination_by unbound order a
decreasing_by
  · exact unbound_extend_lt _hp _hv true
  · exact unbound_extend_lt _hp _hv false

/-- The answer to whether a formula has a model. -/
inductive Verdict where
  /-- A total assignment to the variables of the formula, and the partial one that the search had
  when every clause became satisfied. -/
  | satisfiable (assignment snapshot : Assignment)
  /-- No assignment satisfies the formula. -/
  | unsatisfiable
deriving DecidableEq

/-- Whether the answer is that there is a model. -/
def Verdict.isSatisfiable : Verdict → Bool
  | .satisfiable _ _ => true
  | .unsatisfiable => false

/-- The total assignment of the answer. -/
def Verdict.assignment? : Verdict → Option Assignment
  | .satisfiable a _ => some a
  | .unsatisfiable => none

/-- An answer with the trace that led to it. -/
structure Outcome where
  verdict : Verdict
  trace : List Event
  stats : Stats
deriving DecidableEq

/-- The values of an assignment for the variables of a formula, in their order; a free variable is
true. -/
def Formula.completion (f : Formula) (a : Assignment) : Assignment :=
  .ofBindings (f.names.map fun v => (v, (a.value? v).getD true)) (by
    have : (f.names.map fun v => (v, (a.value? v).getD true)).map Prod.fst = f.names := by
      simp [List.map_map, Function.comp_def]
    rw [this]
    exact nodup_firstSeen _)

/-- The search from the empty assignment in the order of the variables. -/
def Formula.solve (f : Formula) : Outcome :=
  let finding := search f f.names 0 ∅
  { verdict := match finding.model with
      | some m => .satisfiable (f.completion m) m
      | none => .unsatisfiable
    trace := finding.events
    stats := finding.stats }

/-- The lines of the trace. -/
def Outcome.lines (o : Outcome) : List String :=
  o.trace.map Event.render

/-- What reading a formula says. -/
def Formula.readLog (f : Formula) : List LogRecord :=
  [⟨.reading, .debug, "Parsed " ++ Text.natural f.size ++ " clauses"⟩]

/-- What a search over a formula says: its size, each event, and the counters at the end. -/
def Formula.searchLog (f : Formula) (o : Outcome) : List LogRecord :=
  let summary :=
    if o.verdict.isSatisfiable then
      "SAT after " ++ Text.natural o.stats.decisions ++ " decisions, " ++
        Text.natural o.stats.propagations ++ " propagations"
    else
      "UNSAT after " ++ Text.natural o.stats.decisions ++ " decisions, " ++
        Text.natural o.stats.conflicts ++ " conflicts"
  let opening := "Solving " ++ Text.natural f.size ++ " clauses over " ++
    Text.natural f.names.length ++ " variables"
  ([opening] ++ o.lines ++ [summary]).map fun text => ⟨.search, .debug, text⟩

end DecisionTrace
