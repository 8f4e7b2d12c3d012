import DecisionTrace.Learning.Consequences
import DecisionTrace.Learning.VariableOrder

/-!
# The trail and its propagation

A search decides literals one after the other and draws what follows from them. The trail keeps the
true literals in the order in which they became so, each with its level, which is the number of
decisions up to it, and with the clause that made it true.

Every clause of two and more literals is watched from two of them. Only when a watched literal
becomes false is the clause looked at: another literal that is not false takes over the watch, and
if there is none, the second watched literal is true from then on, or else the clause is in
conflict.
-/

namespace DecisionTrace

namespace Learning

/-- What is decided, and why. -/
structure Trail where
  /-- By code: zero is open, one is true, two is false. -/
  values : Array Nat
  /-- By variable: the level of its decision. -/
  levels : Array Nat
  /-- By variable: the clause that made it so, counted from one; zero is a decision. -/
  reasons : Array Nat
  /-- By variable: its place on the trail. -/
  positions : Array Nat
  /-- By variable: the last bit of the code that was last true. -/
  phases : Array Nat
  /-- The true codes, in the order in which they became so. -/
  codes : Array Nat := #[]
  /-- Where on the trail the levels after the first begin. -/
  starts : Array Nat := #[]
  /-- The first place on the trail that has not been propagated. -/
  next : Nat := 0
  /-- The first place of the first level whose clause is not its own. -/
  settled : Nat := 0

namespace Trail

/-- The trail before any decision on the variables below a bound. -/
def ofBound (bound : Nat) : Trail where
  values := Array.replicate (2 * bound) 0
  levels := Array.replicate bound 0
  reasons := Array.replicate bound 0
  positions := Array.replicate bound 0
  phases := Array.replicate bound 1

/-- The current level. -/
@[inline] def level (t : Trail) : Nat :=
  t.starts.size

/-- The value of a code. -/
@[inline] def value (t : Trail) (m : Nat) : Nat :=
  t.values.getD m 0

/-- The level of a code. -/
@[inline] def levelOf (t : Trail) (m : Nat) : Nat :=
  t.levels.getD (variableOf m) 0

/-- The clause that decided a variable. -/
@[inline] def reasonOf (t : Trail) (v : Nat) : Nat :=
  t.reasons.getD v 0 - 1

/-- The trail with a code made true for a reason. -/
def assign (m reason : Nat) (t : Trail) : Trail :=
  match t with
  | ⟨values, levels, reasons, positions, phases, codes, starts, next, settled⟩ =>
    let v := variableOf m
    ⟨(values.setIfInBounds m 1).setIfInBounds (flip m) 2, levels.setIfInBounds v starts.size,
      reasons.setIfInBounds v reason, positions.setIfInBounds v codes.size, phases, codes.push m,
      starts, next, settled⟩

/-- The trail with a code made true by decision, on a level of its own. -/
def branch (m : Nat) (t : Trail) : Trail :=
  match t with
  | ⟨values, levels, reasons, positions, phases, codes, starts, next, settled⟩ =>
    assign m 0 ⟨values, levels, reasons, positions, phases, codes, starts.push codes.size, next,
      settled⟩

/-- The trail without its last codes, whose variables stand in the order again. -/
def drop : (count : Nat) → Trail → VariableOrder → Trail × VariableOrder
  | 0, t, o => (t, o)
  | count + 1, t, o =>
    match t with
    | ⟨values, levels, reasons, positions, phases, codes, starts, next, settled⟩ =>
      let m := codes.getD (codes.size - 1) 0
      let v := variableOf m
      drop count
        ⟨(values.setIfInBounds m 0).setIfInBounds (flip m) 0, levels, reasons, positions,
          phases.setIfInBounds v (m &&& 1), codes.pop, starts, next, settled⟩
        (o.insert v)

/-- The trail up to the end of a level. -/
def backTo (level : Nat) (t : Trail) (o : VariableOrder) : Trail × VariableOrder :=
  if level < t.level then
    let start := t.starts.getD level 0
    match drop (t.codes.size - start) t o with
    | (⟨values, levels, reasons, positions, phases, codes, starts, _, settled⟩, o) =>
      (⟨values, levels, reasons, positions, phases, codes, starts.shrink level, start, settled⟩, o)
  else (t, o)

end Trail

/-- The two watched codes of every clause as one number, their exclusive or, which with one of them
gives the other; and the clauses that are watched from each code. -/
structure Watches where
  pairs : Array Nat := #[]
  lists : Array (Array Nat)

namespace Watches

/-- The number of a clause that is not watched; no pair of codes is as large. -/
def unwatched : Nat := Nat.pow 2 31

/-- The watches with those of the next clause. -/
def add (a b : Nat) (w : Watches) : Watches :=
  match w with
  | ⟨pairs, lists⟩ =>
    let id := pairs.size
    ⟨pairs.push (a ^^^ b), (lists.modify a (·.push id)).modify b (·.push id)⟩

/-- The watches with a place for the next clause, which is not watched. -/
def skip (w : Watches) : Watches :=
  match w with
  | ⟨pairs, lists⟩ => ⟨pairs.push unwatched, lists⟩

/-- The watches without those of a clause. -/
def remove (id : Nat) (w : Watches) : Watches :=
  match w with
  | ⟨pairs, lists⟩ => ⟨pairs.setIfInBounds id unwatched, lists⟩

end Watches

/-- The index of a literal, from an index on, that is not false and not the other watched one; past
the end if there is none. -/
def spare (values clause : Array Nat) (other : Nat) : (left : Nat) → (i : Nat) → Nat
  | 0, i => i
  | left + 1, i =>
    let m := clause.getD i 0
    if values.getD m 0 ≠ 2 && m != other then i else spare values clause other left (i + 1)

/-- A list with its remaining items moved behind those that are kept. -/
def close : (left next kept : Nat) → Array Nat → Array Nat
  | 0, _, kept, list => list.shrink kept
  | left + 1, next, kept, list =>
    close left (next + 1) (kept + 1) (list.setIfInBounds kept (list.getD next 0))

/-- What a visit to the clauses of a code leaves behind. -/
structure Visit where
  /-- The clauses that are still watched from the code. -/
  list : Array Nat
  trail : Trail
  watches : Watches
  conflict : Option Nat

/-- The visit to the remaining clauses in the list of a code that has become false. -/
def visit (clauses : Array (Array Nat)) (fallen : Nat) :
    (left next kept : Nat) → Array Nat → Trail → Watches → Visit
  | 0, _, kept, list, trail, watches => ⟨list.shrink kept, trail, watches, none⟩
  | left + 1, next, kept, list, trail, watches =>
    let id := list.getD next 0
    let pair := watches.pairs.getD id Watches.unwatched
    if pair = Watches.unwatched then visit clauses fallen left (next + 1) kept list trail watches
    else
      let other := pair ^^^ fallen
      let value := trail.value other
      if value = 1 then
        visit clauses fallen left (next + 1) (kept + 1) (list.setIfInBounds kept id) trail watches
      else
        let clause := clauses.getD id #[]
        let i := spare trail.values clause other clause.size 0
        if i < clause.size then
          let m := clause.getD i 0
          match watches with
          | ⟨pairs, lists⟩ =>
            visit clauses fallen left (next + 1) kept list trail
              ⟨pairs.setIfInBounds id (other ^^^ m), lists.modify m (·.push id)⟩
        else if value = 2 then
          ⟨close left (next + 1) (kept + 1) (list.setIfInBounds kept id), trail, watches, some id⟩
        else
          visit clauses fallen left (next + 1) (kept + 1) (list.setIfInBounds kept id)
            (trail.assign other (id + 1)) watches

/-- What propagation leaves behind. -/
structure Propagation where
  trail : Trail
  watches : Watches
  conflict : Option Nat

/-- The propagation of the codes of a trail that have not been propagated, at most a number of
them. -/
def propagate (clauses : Array (Array Nat)) : (fuel : Nat) → Trail → Watches → Propagation
  | 0, trail, watches => ⟨trail, watches, none⟩
  | fuel + 1, trail, watches =>
    if trail.next < trail.codes.size then
      let fallen := flip (trail.codes.getD trail.next 0)
      match trail, watches with
      | ⟨values, levels, reasons, positions, phases, codes, starts, next, settled⟩,
        ⟨pairs, lists⟩ =>
        let trail : Trail :=
          ⟨values, levels, reasons, positions, phases, codes, starts, next + 1, settled⟩
        let list := lists.getD fallen #[]
        -- the list is taken out, so that it is changed in place
        let lists := lists.setIfInBounds fallen #[]
        match visit clauses fallen list.size 0 0 list trail ⟨pairs, lists⟩ with
        | ⟨list, trail, ⟨pairs, lists⟩, conflict⟩ =>
          let watches : Watches := ⟨pairs, lists.setIfInBounds fallen list⟩
          match conflict with
          | some id => ⟨trail, watches, some id⟩
          | none => propagate clauses fuel trail watches
    else ⟨trail, watches, none⟩

end Learning

end DecisionTrace
