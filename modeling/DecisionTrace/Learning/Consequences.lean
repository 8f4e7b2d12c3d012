import DecisionTrace.IntegerClauses

/-!
# Clauses that follow from others

A search for a model learns clauses on its way. Here they are kept with the proof that every model
of the given clauses is one of theirs, so whatever the search does, a learned clause can be relied
on, and the empty one refutes the given clauses.

A clause follows when its literals cannot all be false: taken to be false, they leave one literal of
some known clause, which is then true, and so on through a list of known clauses, until one is left
with no literal at all. The list is the only thing that has to be found.

Literals are coded as natural numbers: a number twice, and one more for its negation.
-/

namespace DecisionTrace

namespace Learning

/-- The code of a literal. -/
def code (l : Int) : Nat :=
  if l < 0 then 2 * l.natAbs + 1 else 2 * l.natAbs

/-- The code of the negation. -/
@[inline] def flip (m : Nat) : Nat :=
  m ^^^ 1

/-- The number that a code is about. -/
@[inline] def variableOf (m : Nat) : Nat :=
  m >>> 1

/-- A valuation makes the literal of a code true. -/
def codeHolds (v : Nat → Bool) (m : Nat) : Bool :=
  v (variableOf m) == (m % 2 == 0)

theorem codeHolds_code (v : Nat → Bool) (l : Int) :
    codeHolds v (code l) = IntegerClauses.holds v l := by
  unfold codeHolds code variableOf IntegerClauses.holds
  rw [Nat.shiftRight_eq_div_pow]
  split
  · next h =>
    rw [show (2 * l.natAbs + 1) / 2 ^ 1 = l.natAbs by omega,
      show (2 * l.natAbs + 1) % 2 = 1 by omega, decide_eq_false (by omega)]
    rfl
  · next h =>
    rw [show 2 * l.natAbs / 2 ^ 1 = l.natAbs by omega, show 2 * l.natAbs % 2 = 0 by omega,
      decide_eq_true (by omega)]
    rfl

theorem codeHolds_flip (v : Nat → Bool) (m : Nat) : codeHolds v (flip m) = !codeHolds v m := by
  unfold codeHolds flip variableOf
  have hdiv : (m ^^^ 1) >>> 1 = m >>> 1 := by
    rw [Nat.shiftRight_xor_distrib]; simp
  have hmod : (m ^^^ 1) % 2 = (m % 2) ^^^ 1 := Nat.xor_mod_two_pow (n := 1)
  rw [hdiv, hmod]
  rcases Nat.mod_two_eq_zero_or_one m with h | h <;> rw [h] <;> cases v (m >>> 1) <;> rfl

/-- What is left of a clause when some of its literals are false. -/
inductive Remainder where
  | nothing
  | single (m : Nat)
  | several

namespace Remainder

/-- The remainder with one more literal. -/
def add (falses : Array Bool) (r : Remainder) (m : Nat) : Remainder :=
  if falses.getD m false then r
  else
    match r with
    | .nothing => .single m
    | .single _ => .several
    | .several => .several

/-- The remainder of a clause. -/
def of (falses : Array Bool) (clause : Array Nat) : Remainder :=
  clause.foldl (add falses) .nothing

/-- A literal is among those left; nothing is said of several. -/
def Holds (r : Remainder) (m : Nat) : Prop :=
  match r with
  | .nothing => False
  | .single k => m = k
  | .several => True

theorem holds_add {falses : Array Bool} {r : Remainder} {m k : Nat} (h : r.Holds m) :
    (r.add falses k).Holds m := by
  unfold add
  split
  · exact h
  · cases r with
    | nothing => exact h.elim
    | single n => trivial
    | several => trivial

theorem holds_foldl {falses : Array Bool} {ks : List Nat} {r : Remainder} {m : Nat}
    (h : r.Holds m) : (ks.foldl (add falses) r).Holds m := by
  induction ks generalizing r with
  | nil => exact h
  | cons k ks ih => exact ih (holds_add h)

theorem holds_foldl_of_mem {falses : Array Bool} {ks : List Nat} {r : Remainder} {m : Nat}
    (hm : m ∈ ks) (hf : falses.getD m false = false) : (ks.foldl (add falses) r).Holds m := by
  induction ks generalizing r with
  | nil => cases hm
  | cons k ks ih =>
    rcases List.mem_cons.1 hm with rfl | hm
    · show (ks.foldl (add falses) (r.add falses m)).Holds m
      refine holds_foldl ?_
      unfold add
      rw [hf]
      cases r <;> trivial
    · exact ih hm

/-- A literal of a clause is false or left. -/
theorem holds_of {falses : Array Bool} {clause : Array Nat} {m : Nat} (hm : m ∈ clause)
    (hf : falses.getD m false = false) : (of falses clause).Holds m := by
  rw [of, ← Array.foldl_toList]
  exact holds_foldl_of_mem hm.val hf

end Remainder

/-- Whether a list of clauses shows that not all of some literals can be false. -/
def refutes (clauses : Array (Array Nat)) : (hints : List Nat) → (falses : Array Bool) → Bool
  | [], _ => false
  | hint :: hints, falses =>
    match clauses[hint]? with
    | none => false
    | some clause =>
      match Remainder.of falses clause with
      | .nothing => true
      | .single m => refutes clauses hints (falses.setIfInBounds (flip m) true)
      | .several => false

/-- A valuation makes all literals of a table false. -/
def Falsifies (v : Nat → Bool) (falses : Array Bool) : Prop :=
  ∀ m, falses.getD m false = true → codeHolds v m = false

theorem falsifies_setIfInBounds {v : Nat → Bool} {falses : Array Bool} {m : Nat}
    (h : Falsifies v falses) (hm : codeHolds v m = false) :
    Falsifies v (falses.setIfInBounds m true) := by
  intro k hk
  by_cases hkm : m = k
  · subst hkm; exact hm
  · refine h k ?_
    rw [Array.getD_eq_getD_getElem?, Array.getElem?_setIfInBounds_ne hkm] at hk
    rw [Array.getD_eq_getD_getElem?, hk]

/-- A model of the clauses does not make the literals false. -/
theorem refutes_eq_false {v : Nat → Bool} {clauses : Array (Array Nat)}
    (hc : ∀ c ∈ clauses, ∃ m ∈ c, codeHolds v m = true) {hints : List Nat} {falses : Array Bool}
    (h : Falsifies v falses) : refutes clauses hints falses = false := by
  induction hints generalizing falses with
  | nil => rfl
  | cons hint hints ih =>
    rw [refutes]
    split
    · rfl
    · next clause hclause =>
      obtain ⟨m, hm, hv⟩ := hc clause (Array.mem_of_getElem? hclause)
      have hleft : (Remainder.of falses clause).Holds m := by
        refine Remainder.holds_of hm (Bool.eq_false_iff.2 fun hf => ?_)
        rw [h m hf] at hv
        cases hv
      split
      · next hr => rw [hr] at hleft; exact hleft.elim
      · next k hr =>
        rw [hr] at hleft
        have : m = k := hleft
        subst this
        exact ih (falsifies_setIfInBounds h (by rw [codeHolds_flip, hv]; rfl))
      · rfl

/-- The table in which just the literals of a clause are false. -/
def falsified (size : Nat) (clause : Array Nat) : Array Bool :=
  clause.foldl (fun falses m => falses.setIfInBounds m true) (Array.replicate size false)

theorem falsifies_foldl {v : Nat → Bool} {ms : List Nat} {falses : Array Bool}
    (h : Falsifies v falses) (hms : ∀ m ∈ ms, codeHolds v m = false) :
    Falsifies v (ms.foldl (fun falses m => falses.setIfInBounds m true) falses) := by
  induction ms generalizing falses with
  | nil => exact h
  | cons m ms ih =>
    exact ih (falsifies_setIfInBounds h (hms m List.mem_cons_self))
      fun k hk => hms k (List.mem_cons_of_mem _ hk)

theorem falsifies_falsified {v : Nat → Bool} {size : Nat} {clause : Array Nat}
    (h : ∀ m ∈ clause, codeHolds v m = false) : Falsifies v (falsified size clause) := by
  rw [falsified, ← Array.foldl_toList]
  refine falsifies_foldl (fun m hm => ?_) fun m hm => h m ⟨hm⟩
  rw [Array.getD_eq_getD_getElem?, Array.getElem?_replicate] at hm
  split at hm <;> cases hm

/-- Known clauses, each of which follows from the given ones. -/
structure Consequences (given : IntegerClauses) where
  clauses : Array (Array Nat)
  follow : ∀ v, given.satisfiedBy v = true → ∀ c ∈ clauses, ∃ m ∈ c, codeHolds v m = true

namespace Consequences

/-- The given clauses themselves, without repeated literals. -/
def ofGiven (given : IntegerClauses) : Consequences given where
  clauses := (given.map fun c => ((c.map code).eraseDups).toArray).toArray
  follow := by
    intro v hv c hc
    obtain ⟨d, hd, rfl⟩ := List.mem_map.1 (List.mem_toArray.1 hc)
    obtain ⟨l, hl, hv⟩ := IntegerClauses.satisfiedBy_iff.1 hv d hd
    exact ⟨code l, List.mem_toArray.2 (List.mem_eraseDups.2 (List.mem_map_of_mem hl)),
      by rw [codeHolds_code, hv]⟩

/-- A clause learned from a list of known ones, which must show that it follows. -/
def learn? {given : IntegerClauses} (known : Consequences given) (size : Nat) (clause : Array Nat)
    (hints : List Nat) : Option (Consequences given) :=
  if h : refutes known.clauses hints (falsified size clause) = true then
    some ⟨known.clauses.push clause, fun v hv c hc => by
      rcases Array.mem_push.1 hc with hc | rfl
      · exact known.follow v hv c hc
      · refine Classical.byContradiction fun hnone => ?_
        rw [refutes_eq_false (known.follow v hv) (falsifies_falsified fun m hm => ?_)] at h
        · cases h
        · exact Bool.eq_false_iff.2 fun hm' => hnone ⟨m, hm, hm'⟩⟩
  else none

/-- When a list of known clauses refutes the empty clause, the given clauses have no model. -/
theorem not_satisfiable {given : IntegerClauses} (known : Consequences given) {size : Nat}
    {hints : List Nat} (h : refutes known.clauses hints (falsified size #[]) = true) :
    ¬ given.Satisfiable := fun ⟨v, hv⟩ => by
  rw [refutes_eq_false (known.follow v hv) (falsifies_falsified (by simp))] at h
  cases h

end Consequences

end Learning

end DecisionTrace
