import DecisionTrace.CrossCheck
import DecisionTrace.Proofs.GreatestModel
import DecisionTrace.Proofs.NumberedClauses

/-!
# What a cross-check finds out

A cross-check puts two questions to a solver for integer clauses. If the solver decides clauses
under assumptions, the check passes exactly for right verdicts: the answer is that of the formula,
and a reported assignment is a part of some model (`Formula.crossCheckWith_eq_ok_iff`). Nothing is
asked of the verdict before; its assignment may leave out variables, give them wrong values or bind
names that are no variables.

A valuation that satisfies the integer clauses and the assumptions is a model above the reported
assignment under other names (`Formula.exists_follows_iff`). The solver meets the clauses and the
assumptions of one formula only, and there no integer is zero.
-/

namespace DecisionTrace

variable {order : List String} {f : Formula} {a m : Assignment} {v : Nat → Bool}
  {ls : List Int} {solver : IntegerClauses → List Int → Bool}

namespace IntegerClauses

/-- A solver that finds out whether some valuation satisfies clauses and makes assumptions true, for
clauses and assumptions of integers that are not zero. -/
def DecidedBy (solver : IntegerClauses → List Int → Bool) : Prop :=
  ∀ cs assumptions, (∀ c ∈ cs, ∀ k ∈ c, k ≠ 0) → (∀ k ∈ assumptions, k ≠ 0) →
    (solver cs assumptions = true ↔
      ∃ v, satisfiedBy v cs = true ∧ ∀ k ∈ assumptions, holds v k = true)

/-- The solver of this library takes assumptions as clauses of one literal. -/
theorem decidedBy_hasModelWith : DecidedBy hasModelWith := by
  intro cs assumptions _ _
  rw [hasModelWith, hasModel_iff]
  refine exists_congr fun v => ?_
  simp only [satisfiedBy_iff, List.forall_mem_append, List.forall_mem_map]
  constructor
  · rintro ⟨hassumed, hclauses⟩
    exact ⟨hclauses, fun k hk => by simpa using hassumed k hk⟩
  · rintro ⟨hclauses, hassumed⟩
    exact ⟨fun k hk => ⟨k, List.mem_singleton_self k, hassumed k hk⟩, hclauses⟩

end IntegerClauses

/-! ## Assumptions -/

/-- The integer of a binding. -/
def bindingInteger (order : List String) (b : String × Bool) : Int :=
  Literal.toInteger order ⟨b.1, !b.2⟩

namespace Formula

/-- An assignment has integers exactly if all its names are in the order. -/
theorem assumptions_eq_ok_iff {bs : List (String × Bool)} : assumptions order bs = .ok ls ↔
    (∀ b ∈ bs, b.1 ∈ order) ∧ ls = bs.map (bindingInteger order) := by
  induction bs generalizing ls with
  | nil => simp [assumptions, eq_comm]
  | cons b bs ih =>
      obtain ⟨name, value⟩ := b
      rw [assumptions]
      by_cases hname : name ∈ order
      · rw [if_neg (by simpa using hname), List.map_cons, List.forall_mem_cons]
        cases hrest : assumptions order bs with
        | error failure =>
            have hnone : ¬ ∀ b ∈ bs, b.1 ∈ order := by
              intro hall
              have hok := ih.2 ⟨hall, rfl⟩
              rw [hrest] at hok
              cases hok
            exact iff_of_false (by simp) fun h => hnone h.1.2
        | ok rest =>
            obtain ⟨hall, rfl⟩ := ih.1 hrest
            simp only [Except.ok.injEq]
            constructor
            · rintro rfl
              exact ⟨⟨hname, hall⟩, rfl⟩
            · rintro ⟨-, rfl⟩
              rfl
      · simp [hname]

/-- The assumptions hold exactly for numbers that follow the assignment. -/
theorem forall_holds_iff (hnames : ∀ b ∈ a.bindings, b.1 ∈ order) :
    (∀ k ∈ a.bindings.map (bindingInteger order), IntegerClauses.holds v k = true) ↔
      Follows order a v := by
  rw [List.forall_mem_map]
  have hholds (b : String × Bool) (hb : b.1 ∈ order) :
      IntegerClauses.holds v (bindingInteger order b) = true ↔
        v (numberIn order b.1).natAbs = b.2 := by
    rw [bindingInteger, holds_toInteger hb, Literal.satisfyingValue, Bool.not_not]
  constructor
  · intro h name hname value hvalue
    have hb := Assignment.mem_bindings_iff.2 hvalue
    exact (hholds (name, value) hname).1 (h (name, value) hb)
  · intro h b hb
    exact (hholds b (hnames b hb)).2
      (h b.1 (hnames b hb) b.2 (Assignment.mem_bindings_iff.1 hb))

/-! ## Valuations and models -/

/-- The values of the variables that go with values of their numbers. -/
def named (f : Formula) (v : Nat → Bool) : Assignment :=
  .ofBindings (f.names.map fun name => (name, v (numberIn f.names name).natAbs)) (by
    have hnames : (f.names.map fun name => (name, v (numberIn f.names name).natAbs)).map
        Prod.fst = f.names := by
      simp [Function.comp_def]
    rw [hnames]
    exact f.nodup_names)

theorem value?_named (f : Formula) (v : Nat → Bool) (name : String) : (f.named v).value? name =
    if name ∈ f.names then some (v (numberIn f.names name).natAbs) else none := by
  rw [Assignment.value?_eq_lookup]
  exact lookup_map_pair (fun name => v (numberIn f.names name).natAbs) f.names name

/-- Satisfying numbers that follow an assignment are the models above it. -/
theorem exists_follows_iff (hnames : ∀ b ∈ a.bindings, b.1 ∈ f.names) :
    (∃ v, f.toIntegers.satisfiedBy v = true ∧ Follows f.names a v) ↔
      ∃ m, f.satisfiedBy m = true ∧ a ≤ m := by
  constructor
  · rintro ⟨v, hv, hfollows⟩
    have hself : Follows f.names (f.named v) v := by
      intro name hname value hvalue
      rw [value?_named, if_pos hname] at hvalue
      exact Option.some.inj hvalue
    have htotal : ∀ name ∈ f.names, (f.named v).binds name = true := by
      intro name hname
      rw [Assignment.binds, value?_named, if_pos hname, Option.isSome_some]
    refine ⟨f.named v, satisfiedBy_of_toIntegers hself htotal hv, ?_⟩
    intro name value hvalue
    have hname := hnames (name, value) (Assignment.mem_bindings_iff.2 hvalue)
    rw [value?_named, if_pos hname, hfollows name hname value hvalue]
  · rintro ⟨m, hm, ham⟩
    have hfollows := follows_valuation f.names m
    refine ⟨valuation f.names m, satisfiedBy_toIntegers hfollows hm, ?_⟩
    exact fun name hname value hvalue => hfollows name hname value (ham name value hvalue)

/-! ## The two questions -/

/-- A solver that decides clauses finds out whether an assignment is a part of a model. -/
theorem solver_toIntegers_iff (hsolver : IntegerClauses.DecidedBy solver)
    (hnames : ∀ b ∈ a.bindings, b.1 ∈ f.names) :
    solver f.toIntegers (a.bindings.map (bindingInteger f.names)) = true ↔
      ∃ m, f.satisfiedBy m = true ∧ a ≤ m := by
  have hclauses : ∀ c ∈ f.toIntegers, ∀ k ∈ c, k ≠ 0 :=
    fun c hc k hk => (f.bounded_toIntegers c hc k hk).1
  have hassumptions : ∀ k ∈ a.bindings.map (bindingInteger f.names), k ≠ 0 := by
    rw [List.forall_mem_map]
    exact fun b hb => (toInteger_spec (hnames b hb)).1
  rw [hsolver _ _ hclauses hassumptions, ← exists_follows_iff hnames]
  exact exists_congr fun v => and_congr_right fun _ => forall_holds_iff hnames

/-- The first question is whether there is a model. -/
theorem solver_nil_iff (hsolver : IntegerClauses.DecidedBy solver) :
    solver f.toIntegers [] = true ↔ ∃ m, f.satisfiedBy m = true := by
  have hnil : ∀ b ∈ (∅ : Assignment).bindings, b.1 ∈ f.names := List.forall_mem_nil _
  have hiff := solver_toIntegers_iff hsolver hnil
  rw [show (∅ : Assignment).bindings.map (bindingInteger f.names) = [] from rfl] at hiff
  rw [hiff]
  exact exists_congr fun m => and_iff_left (Assignment.empty_le m)

theorem crossCheckWith_unsatisfiable_iff :
    f.crossCheckWith solver .unsatisfiable = .ok () ↔ solver f.toIntegers [] = false := by
  rw [crossCheckWith.eq_def, Verdict.isSatisfiable]
  split <;> simp_all

theorem crossCheckWith_satisfiable_iff {snapshot : Assignment} :
    f.crossCheckWith solver (.satisfiable a snapshot) = .ok () ↔
      solver f.toIntegers [] = true ∧ ∃ ls, assumptions f.names a.bindings = .ok ls ∧
        solver f.toIntegers ls = true := by
  rw [crossCheckWith.eq_def, Verdict.isSatisfiable]
  cases solver f.toIntegers [] with
  | false => simp
  | true =>
      simp only [ne_eq, not_true_eq_false, if_false, true_and]
      cases assumptions f.names a.bindings with
      | error failure => simp
      | ok ls => simp

/-! ## Right verdicts -/

/-- A verdict that is right: it says whether there is a model, and a reported assignment binds
variables of the formula only and is a part of a model. -/
structure IsRight (f : Formula) (answer : Verdict) : Prop where
  satisfiable_iff : answer.isSatisfiable = true ↔ ∃ m, f.satisfiedBy m = true
  names : ∀ a ∈ answer.assignment?, ∀ name, a.binds name = true → name ∈ f.names
  extends_to_model : ∀ a ∈ answer.assignment?, ∃ m, f.satisfiedBy m = true ∧ a ≤ m

theorem forall_bindings_iff : (∀ b ∈ a.bindings, b.1 ∈ order) ↔
    ∀ name, a.binds name = true → name ∈ order := by
  simp only [Assignment.binds_iff_mem_names, Assignment.names, List.mem_map, forall_exists_index,
    and_imp]
  exact ⟨fun h name b hb hname => hname ▸ h b hb, fun h b hb => h b.1 b hb rfl⟩

/-- Only a right verdict passes, and every right one does. -/
theorem crossCheckWith_eq_ok_iff (hsolver : IntegerClauses.DecidedBy solver) (f : Formula)
    (answer : Verdict) : f.crossCheckWith solver answer = .ok () ↔ f.IsRight answer := by
  have hmodel := solver_nil_iff (f := f) hsolver
  cases answer with
  | unsatisfiable =>
      rw [crossCheckWith_unsatisfiable_iff, ← Bool.not_eq_true, hmodel]
      constructor
      · intro hno
        exact ⟨iff_of_false (by simp [Verdict.isSatisfiable]) hno, nofun, nofun⟩
      · intro hright hyes
        exact absurd (hright.satisfiable_iff.2 hyes) (by simp [Verdict.isSatisfiable])
  | satisfiable a snapshot =>
      rw [crossCheckWith_satisfiable_iff, hmodel]
      constructor
      · rintro ⟨hyes, ls, hls, hsolves⟩
        obtain ⟨hnames, rfl⟩ := assumptions_eq_ok_iff.1 hls
        refine ⟨iff_of_true rfl hyes, ?_, ?_⟩
        · rintro _ ⟨⟩
          exact forall_bindings_iff.1 hnames
        · rintro _ ⟨⟩
          exact (solver_toIntegers_iff hsolver hnames).1 hsolves
      · intro hright
        have hnames := forall_bindings_iff.2 (hright.names a rfl)
        refine ⟨hright.satisfiable_iff.1 rfl, _, assumptions_eq_ok_iff.2 ⟨hnames, rfl⟩, ?_⟩
        exact (solver_toIntegers_iff hsolver hnames).2 (hright.extends_to_model a rfl)

/-- The verdict of a search is right. -/
theorem isRight_solve (f : Formula) : f.IsRight f.solve.verdict := by
  have hx := explored_solve f
  simp only [solve]
  cases hd : (search f f.names 0 ∅).model with
  | none =>
      refine ⟨iff_of_false (by simp [Verdict.isSatisfiable]) ?_, nofun, nofun⟩
      rintro ⟨m, hm⟩
      exact hx.not_le_of_model hd hm (Assignment.empty_le m)
  | some b =>
      have hgreatest := greatestModel_of_explored hx hd
      refine ⟨iff_of_true rfl ⟨_, hgreatest.satisfies⟩, ?_, ?_⟩
      · rintro _ ⟨⟩ name hname
        rwa [Assignment.binds_iff_mem_names, hgreatest.names_eq] at hname
      · rintro _ ⟨⟩
        exact ⟨_, hgreatest.satisfies, le_refl _⟩

/-- With a solver that decides clauses under assumptions, the cross-check passes exactly for right
verdicts, and so for the verdict of every search. -/
theorem crossCheckWith_isRight (solver : IntegerClauses → List Int → Bool)
    (hsolver : IntegerClauses.DecidedBy solver) :
    (∀ (f : Formula) (answer : Verdict),
      f.crossCheckWith solver answer = .ok () ↔ f.IsRight answer) ∧
    ∀ f : Formula, f.crossCheckWith solver f.solve.verdict = .ok () := by
  have hcheck := crossCheckWith_eq_ok_iff hsolver
  exact ⟨hcheck, fun f => (hcheck f _).2 f.isRight_solve⟩

/-- A formula that leaves some choice. -/
def undecided : Formula where
  clauses := [.ofCons ⟨"A", false⟩ [⟨"B", false⟩], .ofCons ⟨"A", true⟩ [⟨"C", false⟩]]

/-- A part of a model that no search would report: the value of one variable alone. -/
def lastFalse : Assignment :=
  .ofPairs [("C", false)]

theorem crossCheckWith_isRight_forged :
    IntegerClauses.DecidedBy IntegerClauses.hasModelWith ∧
    undecided.crossCheckWith IntegerClauses.hasModelWith (.satisfiable lastFalse ∅) = .ok () ∧
    undecided.crossCheckWith IntegerClauses.hasModelWith undecided.solve.verdict = .ok () := by
  have hsolver := IntegerClauses.decidedBy_hasModelWith
  obtain ⟨hcheck, hsolve⟩ := crossCheckWith_isRight _ hsolver
  have hmodel : undecided.satisfiedBy
      (.ofPairs [("A", false), ("B", true), ("C", false)]) = true := by decide +kernel
  have hle : lastFalse ≤ .ofPairs [("A", false), ("B", true), ("C", false)] := by
    intro name value hvalue
    have hmem : (name, value) ∈ lastFalse.bindings := Assignment.mem_bindings_iff.2 hvalue
    rw [← Assignment.mem_bindings_iff]
    have hsub : ∀ b ∈ lastFalse.bindings,
        b ∈ (Assignment.ofPairs [("A", false), ("B", true), ("C", false)]).bindings := by
      decide +kernel
    exact hsub _ hmem
  refine ⟨hsolver, (hcheck _ _).2 ⟨iff_of_true rfl ⟨_, hmodel⟩, ?_, ?_⟩, hsolve undecided⟩
  · rintro _ ⟨⟩
    exact forall_bindings_iff.1 (by decide +kernel)
  · rintro _ ⟨⟩
    exact ⟨_, hmodel, hle⟩

end Formula

end DecisionTrace
