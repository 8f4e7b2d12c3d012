import DecisionTrace.Learning.Conflict

/-!
# Search with learning

The search propagates, and decides an open variable when nothing more follows. A conflict teaches a
clause, which leads the search back to the level where it first asserts a literal. From time to time
the search starts over with what it has learned; then the learned clauses that tie together many
levels are no longer watched.

The search may give up, since its effort is limited, but what it says is right: a model is tried on
the given clauses, and a refutation is a list of clauses that follow from them.
-/

namespace DecisionTrace

namespace Learning

/-- How the search is going. -/
structure Pace where
  conflicts : Nat := 0
  /-- Conflicts since the search last started over. -/
  fresh : Nat := 0
  /-- The mean number of levels in the clauses learned lately, in units of `2 ^ -16`. -/
  recent : Nat := 0
  /-- The same over a long time. -/
  overall : Nat := 0

namespace Pace

/-- A mean over a window of so many values after one more. -/
def mean (window count old value : Nat) : Nat :=
  let weight := min window (count + 1)
  (old * (weight - 1) + value * 65536) / weight

/-- The pace after a clause with so many levels has been learned. -/
def note (levels : Nat) (p : Pace) : Pace where
  conflicts := p.conflicts + 1
  fresh := p.fresh + 1
  recent := mean 32 p.conflicts p.recent levels
  overall := mean 4096 p.conflicts p.overall levels

/-- Whether to start over: the clauses learned lately tie together many levels. -/
def wantsRestart (p : Pace) : Bool :=
  10 ≤ p.fresh && 10 * p.overall < 9 * p.recent

end Pace

/-- The learned clauses that are watched. -/
structure Learned where
  /-- The clauses, with the numbers of their levels. -/
  clauses : List (Nat × Nat) := []
  count : Nat := 0
  /-- How many of them are too many. -/
  limit : Nat := 2000

namespace Learned

/-- The learned clauses with one more. -/
def add (id levels : Nat) (l : Learned) : Learned :=
  { l with clauses := (id, levels) :: l.clauses, count := l.count + 1 }

/-- The better half of the learned clauses, those with fewer levels or learned later, and the
others; a clause with two levels is always kept. -/
def halve (l : Learned) : Learned × List Nat :=
  let sorted := l.clauses.mergeSort fun x y => x.2 < y.2 || (x.2 = y.2 && y.1 ≤ x.1)
  let (kept, dropped) := (sorted.drop (l.count / 2)).partition fun x => x.2 ≤ 2
  let clauses := sorted.take (l.count / 2) ++ kept
  ({ clauses, count := clauses.length, limit := l.limit + 300 }, dropped.map Prod.fst)

end Learned

/-- The state of a search. -/
structure Solver (given : IntegerClauses) where
  known : Consequences given
  trail : Trail
  watches : Watches
  order : VariableOrder
  /-- Zeros, for the marks of the next conflict. -/
  marks : Array Nat
  learned : Learned := {}
  pace : Pace := {}

/-- Whether clauses are satisfiable. -/
abbrev Decision (given : IntegerClauses) : Type :=
  { b : Bool // b = true ↔ given.Satisfiable }

/-- The valuation of a trail; what is open is false. -/
def Trail.valuation (t : Trail) (n : Nat) : Bool :=
  t.value (2 * n) = 1

/-- A model, tried on the given clauses. -/
def Decision.ofModel? (given : IntegerClauses) (v : Nat → Bool) : Option (Decision given) :=
  if h : given.satisfiedBy v = true then some ⟨true, iff_of_true rfl ⟨v, h⟩⟩ else none

namespace Solver

variable {given : IntegerClauses}

/-- The clauses that made the literals of a clause false on the first level. -/
def settledHints (trail : Trail) (clause : Array Nat) : List Nat :=
  clause.toList.map fun m => trail.reasonOf (variableOf m)

/-- The refutation by a conflict on the first level, whose clause is given. -/
def refutation? (s : Solver given) (conflict : Nat) : Option (Decision given) :=
  let clause := s.known.clauses.getD conflict #[]
  let hints := settledHints s.trail clause ++ [conflict]
  if h : refutes s.known.clauses hints (falsified s.trail.values.size #[]) = true then
    some ⟨false, iff_of_false Bool.false_ne_true (s.known.not_satisfiable h)⟩
  else none

/-- The state in which each code of the first level is a learned clause of its own, at most so many
more of them. -/
def settle : (fuel : Nat) → Solver given → Option (Solver given)
  | 0, s => some s
  | fuel + 1, ⟨known, trail, watches, order, marks, learned, pace⟩ =>
    if trail.settled < trail.codes.size then
      let m := trail.codes.getD trail.settled 0
      let v := variableOf m
      let id := trail.reasonOf v
      let clause := known.clauses.getD id #[]
      if clause.size ≤ 1 then
        settle fuel
          ⟨known, { trail with settled := trail.settled + 1 }, watches, order, marks, learned, pace⟩
      else
        let hints := settledHints trail (clause.filter (· ≠ m)) ++ [id]
        match known.learn? trail.values.size #[m] hints with
        | none => none
        | some known =>
          let trail := { trail with
            settled := trail.settled + 1
            reasons := trail.reasons.setIfInBounds v known.clauses.size }
          settle fuel ⟨known, trail, watches.skip, order, marks, learned, pace⟩
    else some ⟨known, trail, watches, order, marks, learned, pace⟩

/-- The state after the lesson of a conflict. -/
def learn (conflict : Nat) : Solver given → Option (Solver given)
  | ⟨known, trail, watches, order, marks, learned, pace⟩ =>
    match lesson known.clauses trail conflict marks with
    | (s, marks) =>
      match known.learn? trail.values.size s.clause s.hints with
      | none => none
      | some known =>
        let order := (s.involved.foldl VariableOrder.award order).raiseBonus
        let levels := s.levelCount trail
        let second := s.second trail
        let target := if s.others.isEmpty then 0 else trail.levelOf second
        match trail.backTo target order with
        | (trail, order) =>
          let id := known.clauses.size - 1
          let trail := trail.assign s.asserted (id + 1)
          let pace := pace.note levels
          if s.others.isEmpty then
            some ⟨known, trail, watches.skip, order, marks, learned, pace⟩
          else
            some ⟨known, trail, watches.add s.asserted second, order, marks, learned.add id levels,
              pace⟩

/-- The state with fewer learned clauses, once there are too many. -/
def reduce : Solver given → Solver given
  | ⟨known, trail, watches, order, marks, learned, pace⟩ =>
    if learned.count < learned.limit then
      ⟨known, trail, watches, order, marks, learned, pace⟩
    else
      match learned.halve with
      | (learned, dropped) =>
        ⟨known, trail, dropped.foldl (fun watches id => watches.remove id) watches, order, marks,
          learned, pace⟩

/-- The state back on the first level. -/
def restart : Solver given → Solver given
  | ⟨known, trail, watches, order, marks, learned, pace⟩ =>
    match trail.backTo 0 order with
    | (trail, order) => ⟨known, trail, watches, order, marks, learned, { pace with fresh := 0 }⟩

/-- An open variable of those with the highest scores, at most so many being looked at. -/
def openVariable? (trail : Trail) : (fuel : Nat) → VariableOrder → Option (Nat × VariableOrder)
  | 0, _ => none
  | fuel + 1, order =>
    match order.pop? with
    | none => none
    | some (v, order) =>
      if trail.value (2 * v) = 0 then some (v, order) else openVariable? trail fuel order

/-- The state after a decision, or the model when nothing is open. -/
def branch : Solver given → Option (Decision given) ⊕ Solver given
  | ⟨known, trail, watches, order, marks, learned, pace⟩ =>
    match openVariable? trail trail.values.size order with
    | none => .inl (Decision.ofModel? given trail.valuation)
    | some (v, order) =>
      let phase := trail.phases.getD v 1
      .inr ⟨known, trail.branch (2 * v + phase), watches, order, marks, learned, pace⟩

/-- The search in a number of steps, each of which ends with a conflict or a decision. -/
def run : (steps : Nat) → Solver given → Option (Decision given)
  | 0, _ => none
  | steps + 1, ⟨known, trail, watches, order, marks, learned, pace⟩ =>
    match propagate known.clauses trail.values.size trail watches with
    | ⟨trail, watches, some conflict⟩ =>
      let s : Solver given := ⟨known, trail, watches, order, marks, learned, pace⟩
      if trail.level = 0 then
        match s.settle trail.codes.size with
        | none => none
        | some s => s.refutation? conflict
      else
        match s.learn conflict with
        | none => none
        | some s => run steps s
    | ⟨trail, watches, none⟩ =>
      let s : Solver given := ⟨known, trail, watches, order, marks, learned, pace⟩
      if trail.level = 0 then
        match s.settle trail.codes.size with
        | none => none
        | some s =>
          match s.reduce.branch with
          | .inl d => d
          | .inr s => run steps s
      else if pace.wantsRestart then run steps s.restart
      else
        match s.branch with
        | .inl d => d
        | .inr s => run steps s

/-- The trail with the literals of the clauses that have only one, and a clause that is in conflict
with them, from a clause on. -/
def takeUnits (clauses : Array (Array Nat)) : (left id : Nat) → Trail → Trail × Option Nat
  | 0, _, trail => (trail, none)
  | left + 1, id, trail =>
    let clause := clauses.getD id #[]
    let m := clause.getD 0 0
    if clause.size = 0 then (trail, some id)
    else if clause.size = 1 && trail.value m = 2 then (trail, some id)
    else if clause.size = 1 && trail.value m = 0 then
      takeUnits clauses left (id + 1) (trail.assign m (id + 1))
    else takeUnits clauses left (id + 1) trail

/-- The watches of the given clauses. -/
def watchGiven (bound : Nat) (clauses : Array (Array Nat)) : Watches :=
  clauses.foldl (fun watches clause =>
      if clause.size ≤ 1 then watches.skip else watches.add (clause.getD 0 0) (clause.getD 1 0))
    { lists := Array.replicate (2 * bound) #[] }

/-- The number of steps after which the search gives up. -/
def maxSteps : Nat := Nat.pow 2 40

/-- The search on given clauses. -/
def decide? (given : IntegerClauses) : Option (Decision given) :=
  let known := Consequences.ofGiven given
  let bound := known.clauses.foldl (fun bound clause =>
    clause.foldl (fun bound m => max bound (variableOf m + 1)) bound) 1
  match takeUnits known.clauses known.clauses.size 0 (.ofBound bound) with
  | (trail, conflict) =>
    let s : Solver given :=
      { known, trail, watches := watchGiven bound known.clauses, order := .ofBound bound
        marks := Array.replicate bound 0 }
    match conflict with
    | some id => s.refutation? id
    | none => s.run maxSteps

end Solver

end Learning

end DecisionTrace
