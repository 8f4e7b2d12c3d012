import DecisionTrace.Learning.Trail

/-!
# What a conflict teaches

A clause in conflict has only false literals, several of them on the current level. Going back along
the trail, the latest of these is replaced by the literals that made it false, until a single one of
the level is left. The literals that have come together are then false, and they cannot all be: this
is the lesson, and the clauses on the way, latest last, show that it follows.

Literals of lower levels that the others make false anyway are left out; the clauses that make them
so come first on the list.
-/

namespace DecisionTrace

namespace Learning

/-- The marks of a conflict: its literals while they come together. -/
structure Gathering where
  /-- By variable: zero is new, one is gathered, two is implied by what is gathered, three is
  not. -/
  marks : Array Nat
  /-- The number of gathered literals of the current level that have not been replaced. -/
  here : Nat := 0
  /-- The gathered literals of lower levels. -/
  lower : List Nat := []
  /-- The variables with a mark. -/
  marked : List Nat := []
  /-- The implied variables. -/
  implied : List Nat := []

namespace Gathering

/-- The gathering with a false literal. -/
def add (trail : Trail) (g : Gathering) (m : Nat) : Gathering :=
  let v := variableOf m
  if g.marks.getD v 0 = 0 then
    match g with
    | ⟨marks, here, lower, marked, implied⟩ =>
      let marks := marks.setIfInBounds v 1
      if trail.levelOf m = trail.level then ⟨marks, here + 1, lower, v :: marked, implied⟩
      else ⟨marks, here, m :: lower, v :: marked, implied⟩
  else g

/-- The gathering with the literals of a clause. -/
def addClause (trail : Trail) (g : Gathering) (clause : Array Nat) : Gathering :=
  clause.foldl (add trail) g

/-- The way back along a trail, from a place on it: the last literal of the level that is left, and
the clauses on the way, in front of those given. -/
def back (clauses : Array (Array Nat)) (trail : Trail) :
    (place : Nat) → Gathering → (way : List Nat) → Nat × Gathering × List Nat
  | 0, g, way => (0, g, way)
  | place + 1, g, way =>
    let m := trail.codes.getD place 0
    let v := variableOf m
    if g.marks.getD v 0 = 0 then back clauses trail place g way
    else if g.here ≤ 1 then (m, g, way)
    else
      let id := trail.reasonOf v
      match g with
      | ⟨marks, here, lower, marked, implied⟩ =>
        let g := addClause trail ⟨marks, here - 1, lower, marked, implied⟩ (clauses.getD id #[])
        back clauses trail place g (id :: way)

/-- The gathering with a mark on a variable. -/
def mark (v : Nat) (isImplied : Bool) (g : Gathering) : Gathering :=
  match g with
  | ⟨marks, here, lower, marked, implied⟩ =>
    if isImplied then ⟨marks.setIfInBounds v 2, here, lower, v :: marked, v :: implied⟩
    else ⟨marks.setIfInBounds v 3, here, lower, v :: marked, implied⟩

/-- Whether what is gathered makes a variable what it is, through chains of clauses of a limited
length. -/
def implies (clauses : Array (Array Nat)) (trail : Trail) :
    (length : Nat) → (v : Nat) → Gathering → Bool × Gathering
  | 0, _, g => (false, g)
  | length + 1, v, g =>
    let known := g.marks.getD v 0
    if known = 1 || known = 2 then (true, g)
    else if known = 3 then (false, g)
    else if trail.reasons.getD v 0 = 0 then (false, g.mark v false)
    else
      let clause := clauses.getD (trail.reasonOf v) #[]
      let (all, g) := clause.foldl (fun (all, g) m =>
        if all && variableOf m != v then implies clauses trail length (variableOf m) g
        else (all, g)) (true, g)
      (all, g.mark v all)

/-- Whether the other literals make a gathered one false. -/
def isImplied (clauses : Array (Array Nat)) (trail : Trail) (m : Nat) (g : Gathering) :
    Bool × Gathering :=
  let v := variableOf m
  if trail.reasons.getD v 0 = 0 then (false, g)
  else
    let clause := clauses.getD (trail.reasonOf v) #[]
    clause.foldl (fun (all, g) k =>
      if all && variableOf k != v then implies clauses trail trail.codes.size (variableOf k) g
      else (all, g)) (true, g)

/-- The literals that the others do not make false. -/
def shorten (clauses : Array (Array Nat)) (trail : Trail) :
    List Nat → Gathering → List Nat × Gathering
  | [], g => ([], g)
  | m :: ms, g =>
    match isImplied clauses trail m g with
    | (true, g) => shorten clauses trail ms (g.mark (variableOf m) true)
    | (false, g) =>
      match shorten clauses trail ms g with
      | (ms, g) => (m :: ms, g)

end Gathering

/-- What is learned from a conflict. -/
structure Lesson where
  /-- The literal that the clause makes true on the level that it leads back to. -/
  asserted : Nat
  /-- The other literals of the clause. -/
  others : List Nat
  /-- The clauses that show that it follows. -/
  hints : List Nat
  /-- The variables that took part. -/
  involved : List Nat

/-- A table with zeros for some variables. -/
def wipe (marks : Array Nat) (vs : List Nat) : Array Nat :=
  vs.foldl (fun marks v => marks.setIfInBounds v 0) marks

/-- The lesson of a conflict, and the wiped marks. -/
def lesson (clauses : Array (Array Nat)) (trail : Trail) (conflict : Nat) (marks : Array Nat) :
    Lesson × Array Nat :=
  let g := Gathering.addClause trail { marks } (clauses.getD conflict #[])
  match g.back clauses trail trail.codes.size [conflict] with
  | (last, ⟨marks, here, lower, involved, _⟩, way) =>
    match Gathering.shorten clauses trail lower ⟨marks, here, [], [], []⟩ with
    | (others, ⟨marks, _, _, marked, implied⟩) =>
      let sorted := implied.mergeSort fun u v =>
        trail.positions.getD u 0 ≤ trail.positions.getD v 0
      ({ asserted := flip last, others, hints := sorted.map trail.reasonOf ++ way, involved },
        wipe (wipe marks involved) marked)

namespace Lesson

/-- The clause. -/
def clause (s : Lesson) : Array Nat :=
  (s.asserted :: s.others).toArray

/-- The literal of the highest level among the others. -/
def second (s : Lesson) (trail : Trail) : Nat :=
  s.others.foldl (fun a b => if trail.levelOf a < trail.levelOf b then b else a)
    (s.others.headD s.asserted)

/-- The number of levels of the literals. -/
def levelCount (s : Lesson) (trail : Trail) : Nat :=
  ((s.clause.toList.map trail.levelOf).mergeSort).eraseReps.length

end Lesson

end Learning

end DecisionTrace
