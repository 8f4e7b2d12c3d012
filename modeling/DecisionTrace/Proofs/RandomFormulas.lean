import DecisionTrace.Random.Formula
import DecisionTrace.Proofs.ClauseText
import DecisionTrace.Proofs.Doubles
import DecisionTrace.Proofs.Draws
import DecisionTrace.Proofs.TraceText
import Mathlib.Data.List.Nodup

/-!
# What a random formula is made of

On every stream a random formula has as many clauses as were asked for, or a number between the
bounds around the estimate, and every clause has the same number of literals on different variables
(`Generation.formula_ensures`). It fails for what it was asked, or because a draw is never accepted.
Clauses with fewer literals than none, or with none, are refused before anything is drawn; with that
`Generation.formula_fits` says how a generation ends on every stream on which the draws do.

The names of the variables can be written in clauses and in traces, and the number of clauses that
an estimate leads to is one that can be written too, since it comes from doubles
(`Generation.size_le_of_hasShape`).
-/

open scoped List

namespace DecisionTrace

namespace Generation

variable {σ α : Type} {shape : FormulaShape} {f : Formula} {c : Clause}
  {names : List String} {name : String} {k n : Int}

/-! ## Draws within a generation -/

theorem ofDraw_ensures {d : Draw σ α} {Q : α → Prop} {E : GenerationError → Prop}
    (h : Ensures d Q fun e => E (.draw e)) : Ensures (ofDraw d) Q E := by
  intro stream
  have hd := h stream
  have hrun : ((ofDraw d).run.run stream).1 =
      (d.run.run stream).1.mapError GenerationError.draw := rfl
  rw [hrun]
  cases hdrawn : (d.run.run stream).1 with
  | ok a => rwa [hdrawn] at hd
  | error e => rwa [hdrawn] at hd

variable [WordStream σ]

theorem signs_ensures (names : List String) :
    Ensures (signs names : Draw σ (List Literal)) (fun ls => ls.map Literal.name = names)
      fun _ => False := by
  induction names with
  | nil => exact .pure rfl
  | cons name names ih =>
      rw [signs]
      refine Draw.coin_ensures.bind fun negated _ => ih.bind fun rest hrest => .pure ?_
      rw [List.map_cons, hrest]

/-! ## Clauses -/

/-- A clause with a number of literals on different ones of some names. -/
structure IsClauseOn (names : List String) (k : Int) (c : Clause) : Prop where
  names_subperm : c.literals.map Literal.name <+~ names
  length_eq : (c.literals.length : Int) = k

/-- Why there is no clause with a number of literals on a number of names: a draw is never accepted,
the names do not suffice, or there would be no literal. -/
def NoClause (names : List String) (k : Int) (e : GenerationError) : Prop :=
  e = .draw .exhausted ∨ e = .draw .sampleSize ∧ (k < 0 ∨ names.length < k) ∨
    e = .clause { text := "", fault := .noLiterals } ∧ k = 0

theorem clause_ensures (attempts : Nat) (names : List String) (k : Int) :
    Ensures (clause attempts names k : Generation σ Clause) (IsClauseOn names k)
      (NoClause names k) := by
  rw [clause]
  refine (ofDraw_ensures ((Draw.sample_ensures attempts names k).mono (fun _ h => h) ?_)).bind ?_
  · rintro e (rfl | ⟨rfl, hk⟩)
    · exact .inl rfl
    · exact .inr (.inl ⟨rfl, hk⟩)
  · rintro chosen ⟨hsubperm, hlength⟩
    refine (ofDraw_ensures ((signs_ensures chosen).mono (fun _ h => h) fun _ h => h.elim)).bind ?_
    rintro literals rfl
    rw [List.length_map] at hlength
    cases literals with
    | nil => exact .throw (.inr (.inr ⟨rfl, hlength.symm⟩))
    | cons l ls => exact .pure ⟨hsubperm, hlength⟩

theorem clause_of_neg (hk : k < 0) (attempts : Nat) (names : List String) :
    (clause attempts names k : Generation σ Clause) = throw (.draw .sampleSize) := by
  rw [clause, Draw.sample_of_neg hk]
  rfl

theorem clause_zero (attempts : Nat) (names : List String) :
    (clause attempts names 0 : Generation σ Clause) =
      throw (.clause { text := "", fault := .noLiterals }) := by
  rw [clause, Draw.sample_zero]
  rfl

theorem clauses_ensures (attempts : Nat) (names : List String) (k : Int) (count : Nat) :
    Ensures (clauses attempts names k count : Generation σ (List Clause))
      (fun cs => cs.length = count ∧ ∀ c ∈ cs, IsClauseOn names k c) (NoClause names k) := by
  induction count with
  | zero => exact .pure ⟨rfl, by simp⟩
  | succ count ih =>
      rw [clauses]
      refine (clause_ensures attempts names k).bind fun c hc => ih.bind ?_
      rintro rest ⟨rfl, hrest⟩
      exact .pure ⟨rfl, List.forall_mem_cons.2 ⟨hc, hrest⟩⟩

/-! ## The number of clauses -/

/-- A number of clauses that a shape asks for: the given one, or one between the bounds around the
estimate. -/
def IsCount (shape : FormulaShape) (n : Int) : Prop :=
  match shape.clauseCount with
  | some count => n = count
  | none => ∃ base delta, balancedCount shape.variableCount = .ok base ∧
      scaledCount base shape.variance = .ok delta ∧ max (base - delta) 1 ≤ n ∧ n ≤ base + delta

/-- Why a shape leads to no number of clauses: it gives none, and there is no estimate, nothing lies
between the bounds around it, or a draw is never accepted. -/
def NoCount (shape : FormulaShape) (e : GenerationError) : Prop :=
  shape.clauseCount = none ∧ (balancedCount shape.variableCount = .error e ∨
    ∃ base, balancedCount shape.variableCount = .ok base ∧
      (scaledCount base shape.variance = .error e ∨
        ∃ delta, scaledCount base shape.variance = .ok delta ∧
          (e = .draw .exhausted ∨ base + delta < max (base - delta) 1 ∧
            e = .draw (.emptyRange (max (base - delta) 1) (base + delta)))))

theorem clauseCount_ensures (attempts : Nat) (shape : FormulaShape) :
    Ensures (clauseCount attempts shape : Generation σ Int) (IsCount shape) (NoCount shape) := by
  rw [clauseCount]
  cases hcount : shape.clauseCount with
  | some count => exact .pure (by rw [IsCount, hcount])
  | none =>
      cases hbase : balancedCount shape.variableCount with
      | error e => exact .throw ⟨hcount, .inl hbase⟩
      | ok base =>
          simp only
          cases hdelta : scaledCount base shape.variance with
          | error e => exact .throw ⟨hcount, .inr ⟨base, hbase, .inl hdelta⟩⟩
          | ok delta =>
              refine ofDraw_ensures ((Draw.between_ensures _ _ _).mono ?_ ?_)
              · rintro n ⟨hlow, hhigh⟩
                rw [IsCount, hcount]
                exact ⟨base, delta, hbase, hdelta, hlow, hhigh⟩
              · rintro e (rfl | ⟨hempty, rfl⟩)
                · exact ⟨hcount, .inr ⟨base, hbase, .inr ⟨delta, hdelta, .inl rfl⟩⟩⟩
                · exact ⟨hcount, .inr ⟨base, hbase, .inr ⟨delta, hdelta, .inr ⟨hempty, rfl⟩⟩⟩⟩

/-! ## Formulas -/

/-- A formula of a shape. -/
structure HasShape (shape : FormulaShape) (f : Formula) : Prop where
  size : ∃ n, IsCount shape n ∧ f.size = n.toNat
  clauses : ∀ c ∈ f.clauses, IsClauseOn (variableNames shape.variableCount.toNat)
    (min shape.clauseLength shape.variableCount) c

theorem formula_ensures (attempts : Nat) (shape : FormulaShape) :
    Ensures (formula attempts shape : Generation σ Formula) (HasShape shape) fun e =>
      NoCount shape e ∨ NoClause (variableNames shape.variableCount.toNat)
        (min shape.clauseLength shape.variableCount) e := by
  rw [formula]
  refine ((clauseCount_ensures _ shape).mono (fun _ h => h) fun _ => .inl).bind fun n hn => ?_
  refine ((clauses_ensures _ _ _ _).mono (fun _ h => h) fun _ => .inr).bind ?_
  rintro cs ⟨hlength, hcs⟩
  exact .pure ⟨⟨n, hn, hlength⟩, hcs⟩

/-- A clause that does not come about is all that is left of a formula with clauses. -/
theorem formula_of_clause {attempts : Nat} {count : Int} {e : GenerationError}
    (hcount : shape.clauseCount = some count) (hpos : 1 ≤ count)
    (hclause : (clause attempts (variableNames shape.variableCount.toNat)
      (min shape.clauseLength shape.variableCount) : Generation σ Clause) = throw e) :
    (formula attempts shape : Generation σ Formula) = throw e := by
  obtain ⟨rest, hrest⟩ : ∃ rest, count.toNat = rest + 1 := ⟨count.toNat - 1, by omega⟩
  rw [formula, clauseCount, hcount]
  simp only [pure_bind, hrest, clauses, hclause]
  rfl

/-! ## How many clauses there can be -/

theorem natAbs_scaledCount_lt {count : Int} {x : Double}
    (h : scaledCount count (.double x) = .ok n) :
    n.natAbs < 2 ^ 53 * 2 ^ BinaryFraction.maxExponent.toNat := by
  rw [scaledCount] at h
  split at h
  · cases h
  · split at h
    · next hproduct =>
      obtain rfl := Except.ok.inj h
      exact BinaryFraction.natAbs_truncate_lt (BinaryFraction.bounded_of_times hproduct)
    · cases h
    · cases h

theorem natAbs_balancedCount_lt {count : Int} (h : balancedCount count = .ok n) :
    n.natAbs < 2 ^ 53 * 2 ^ BinaryFraction.maxExponent.toNat := by
  rw [balancedCount] at h
  split at h
  · next hlookup =>
    obtain rfl := Except.ok.inj h
    -- the table names the numbers for small formulas, far below the bound
    obtain ⟨before, after, htable, -⟩ := List.lookup_eq_some_iff.1 hlookup
    have hsmall : ∀ p ∈ balancedCounts, p.2.natAbs < 2 ^ 53 := by decide
    have hlt := hsmall _ (htable ▸ List.mem_append_right before List.mem_cons_self)
    exact Nat.lt_of_lt_of_le hlt (Nat.le_mul_of_pos_right _ (Nat.two_pow_pos _))
  · exact natAbs_scaledCount_lt h

/-- The number of clauses that an estimate leads to is one that can be written. -/
theorem size_le_of_hasShape {x : Double} (h : HasShape shape f) (hcount : shape.clauseCount = none)
    (hvariance : shape.variance = .double x) : f.size ≤ 10 ^ Text.maxDigits := by
  obtain ⟨n, hn, hsize⟩ := h.size
  rw [IsCount, hcount] at hn
  obtain ⟨base, delta, hbase, hdelta, -, hhigh⟩ := hn
  rw [hvariance] at hdelta
  have hbase := natAbs_balancedCount_lt hbase
  have hdelta := natAbs_scaledCount_lt hdelta
  have hlimit : 2 * (2 ^ 53 * 2 ^ BinaryFraction.maxExponent.toNat) ≤ 10 ^ Text.maxDigits := by
    decide +kernel
  omega

/-! ## Names -/

theorem mem_variableNames {n : Nat} :
    name ∈ variableNames n ↔ ∃ i, 1 ≤ i ∧ i ≤ n ∧ name = "x" ++ Text.natural i := by
  rw [variableNames, List.mem_map]
  constructor
  · rintro ⟨i, hi, rfl⟩
    exact ⟨i + 1, by omega, List.mem_range.1 hi, rfl⟩
  · rintro ⟨i, hpos, hle, rfl⟩
    exact ⟨i - 1, List.mem_range.2 (by omega), by rw [Nat.sub_add_cancel hpos]⟩

theorem nodup_variableNames (n : Nat) : (variableNames n).Nodup := by
  refine List.Nodup.map (fun i j h => ?_) List.nodup_range
  exact Nat.succ_injective (Text.natural_injective ((String.append_right_inj "x").1 h))

/-! ## Texts -/

/-- What holds of the letter and of the digits holds of all characters of a variable. -/
theorem forall_mem_variable {p : Char → Prop} (hletter : p 'x')
    (hdigit : ∀ d < 10, p (Text.digitChar d)) {n : Nat} (hname : name ∈ variableNames n) :
    ∀ ch ∈ name.toList, p ch := by
  obtain ⟨i, -, rfl⟩ := List.mem_map.1 hname
  rw [String.toList_append, Text.natural, String.toList_ofList (l := Text.naturalDigits (i + 1)),
    List.forall_mem_append]
  refine ⟨List.forall_mem_singleton.2 hletter, fun ch hch => ?_⟩
  obtain ⟨d, hd, rfl⟩ := Text.exists_of_mem_naturalDigits hch
  exact hdigit d hd

theorem ne_empty_of_mem_variableNames {n : Nat} (hname : name ∈ variableNames n) : name ≠ "" := by
  obtain ⟨i, -, rfl⟩ := List.mem_map.1 hname
  exact fun h => absurd (String.append_eq_empty_iff.1 h).1 (by decide)

theorem writableName_of_mem {n : Nat} (hname : name ∈ variableNames n) : WritableName name where
  nonempty := ne_empty_of_mem_variableNames hname
  trimmed := Text.trimmed_of_forall (forall_mem_variable (by decide) (by decide) hname)
  unmarked := forall_mem_variable (by decide) (by decide) hname

theorem readableName_of_mem {n : Nat} (hname : name ∈ variableNames n) : ReadableName name where
  nonempty := ne_empty_of_mem_variableNames hname
  oneLine := fun h =>
    forall_mem_variable (p := (· ≠ '\n')) (by decide) (by decide) hname '\n' h rfl

/-! ## How a generation ends -/

/-- The number of literals in every clause of a shape. -/
def literalCount (shape : FormulaShape) : Int :=
  min shape.clauseLength shape.variableCount

/-- A clause with as many literals as a shape asks for, each on another one of its variables. -/
structure FitsShape (shape : FormulaShape) (c : Clause) : Prop where
  length_eq : (c.literals.length : Int) = literalCount shape
  nodup : (c.literals.map Literal.name).Nodup
  names : ∀ l ∈ c.literals,
    ∃ i : Nat, 1 ≤ i ∧ i ≤ shape.variableCount ∧ l.name = "x" ++ Text.natural i

theorem IsClauseOn.fitsShape
    (h : IsClauseOn (variableNames shape.variableCount.toNat) (literalCount shape) c) :
    FitsShape shape c where
  length_eq := h.length_eq
  nodup := by
    obtain ⟨chosen, hperm, hsub⟩ := h.names_subperm
    exact hperm.nodup_iff.1 ((nodup_variableNames _).sublist hsub)
  names l hl := by
    obtain ⟨i, hpos, hle, hname⟩ :=
      mem_variableNames.1 (h.names_subperm.subset (List.mem_map_of_mem hl))
    exact ⟨i, hpos, by omega, hname⟩

/-- The bounds around an estimate are those of the count. -/
theorem IsCount.bounds {base delta n : Int} (h : IsCount shape n)
    (hcount : shape.clauseCount = none)
    (hbase : balancedCount shape.variableCount = .ok base)
    (hdelta : scaledCount base shape.variance = .ok delta) :
    max (base - delta) 1 ≤ n ∧ n ≤ base + delta := by
  rw [IsCount, hcount] at h
  obtain ⟨base', delta', hbase', hdelta', hbounds⟩ := h
  obtain rfl : base = base' := Except.ok.inj (hbase.symm.trans hbase')
  obtain rfl : delta = delta' := Except.ok.inj (hdelta.symm.trans hdelta')
  exact hbounds

/-- With a number between the bounds only a draw can fail. -/
theorem NoCount.eq_exhausted {base delta : Int} (h : NoCount shape e)
    (hbase : balancedCount shape.variableCount = .ok base)
    (hdelta : scaledCount base shape.variance = .ok delta)
    (hle : max (base - delta) 1 ≤ base + delta) : e = .draw .exhausted := by
  obtain ⟨-, hno | ⟨base', hbase', h⟩⟩ := h
  · exact absurd (hbase.symm.trans hno) nofun
  · obtain rfl : base = base' := Except.ok.inj (hbase.symm.trans hbase')
    obtain hno | ⟨delta', hdelta', rfl | ⟨hempty, -⟩⟩ := h
    · exact absurd (hdelta.symm.trans hno) nofun
    · rfl
    · obtain rfl : delta = delta' := Except.ok.inj (hdelta.symm.trans hdelta')
      omega

/-- Clauses that have literals fail for draws only, so a generation with a number of clauses comes
to its end when the draws do. -/
theorem exists_formula {attempts : Nat} {stream : σ} (hk : 0 < literalCount shape)
    (hcount : ∀ e, NoCount shape e → e = .draw .exhausted)
    (hends : (runOn stream (formula attempts shape)).1 ≠ .error (.draw .exhausted)) :
    ∃ f n, (runOn stream (formula attempts shape)).1 = .ok f ∧ IsCount shape n ∧ f.size = n.toNat ∧
      ∀ c ∈ f.clauses, FitsShape shape c := by
  have hformula := formula_ensures attempts shape stream
  have hlength : (variableNames shape.variableCount.toNat).length = shape.variableCount.toNat := by
    rw [variableNames, List.length_map, List.length_range]
  have hmin : 0 < min shape.clauseLength shape.variableCount := hk
  rw [runOn] at hends ⊢
  cases hrun : ((formula attempts shape : Generation σ Formula).run.run stream).1 with
  | error e =>
      rw [hrun] at hends hformula
      obtain rfl : e = .draw .exhausted := by
        obtain hno | rfl | ⟨rfl, hno⟩ | ⟨rfl, hno⟩ := hformula
        · exact hcount e hno
        · rfl
        · omega
        · omega
      exact absurd rfl hends
  | ok f =>
      rw [hrun] at hformula
      obtain ⟨⟨n, hn, hsize⟩, hclauses⟩ := hformula
      exact ⟨f, n, rfl, hn, hsize, fun c hc => (hclauses c hc).fitsShape⟩

/-- On every stream, a shape whose clauses would have fewer literals than none leads to a refused
sample, and one whose clauses would have none to an empty clause. Otherwise, when the draws end
within their attempts, there is a formula of clauses that fit the shape. Their number is the given
one, or lies between the bounds around the estimate. -/
theorem formula_fits (stream : σ) (attempts : Nat) (shape : FormulaShape) :
    (∀ count, shape.clauseCount = some count → 1 ≤ count →
      (literalCount shape < 0 →
        (runOn stream (formula attempts shape)).1 = .error (.draw .sampleSize)) ∧
      (literalCount shape = 0 → (runOn stream (formula attempts shape)).1 =
        .error (.clause { text := "", fault := .noLiterals })) ∧
      (0 < literalCount shape →
        (runOn stream (formula attempts shape)).1 ≠ .error (.draw .exhausted) →
        ∃ f, (runOn stream (formula attempts shape)).1 = .ok f ∧ (f.size : Int) = count ∧
          ∀ c ∈ f.clauses, FitsShape shape c)) ∧
    ∀ base delta, shape.clauseCount = none → balancedCount shape.variableCount = .ok base →
      scaledCount base shape.variance = .ok delta → max (base - delta) 1 ≤ base + delta →
      0 < literalCount shape →
        (runOn stream (formula attempts shape)).1 ≠ .error (.draw .exhausted) →
        ∃ f, (runOn stream (formula attempts shape)).1 = .ok f ∧ max (base - delta) 1 ≤ f.size ∧
          f.size ≤ base + delta ∧ ∀ c ∈ f.clauses, FitsShape shape c := by
  refine ⟨fun count hcount hpos => ⟨fun hk => ?_, fun hk => ?_, fun hk hends => ?_⟩, ?_⟩
  · rw [formula_of_clause hcount hpos (clause_of_neg hk _ _)]
    rfl
  · rw [formula_of_clause hcount hpos (hk ▸ clause_zero _ _)]
    rfl
  · have hgiven : ∀ e, NoCount shape e → e = .draw .exhausted :=
      fun e hno => absurd (hcount.symm.trans hno.1) nofun
    obtain ⟨f, n, hf, hn, hsize, hfits⟩ := exists_formula hk hgiven hends
    rw [IsCount, hcount] at hn
    exact ⟨f, hf, by omega, hfits⟩
  · intro base delta hcount hbase hdelta hle hk hends
    obtain ⟨f, n, hf, hn, hsize, hfits⟩ :=
      exists_formula hk (fun e hno => hno.eq_exhausted hbase hdelta hle) hends
    obtain ⟨hlow, hhigh⟩ := hn.bounds hcount hbase hdelta
    exact ⟨f, hf, by omega, by omega, hfits⟩

/-- A shape with fewer variables than none. -/
def negativeShape : FormulaShape := { variableCount := -2, clauseCount := some 1 }

/-- A shape whose clauses are empty. -/
def emptyShape : FormulaShape := { variableCount := 5, clauseLength := 0, clauseCount := some 2 }

/-- A shape whose clauses would be longer than there are variables. -/
def cappedShape : FormulaShape := { variableCount := 2, clauseCount := some 2 }

/-- A shape that leaves the number of its clauses to the estimate. -/
def balancedShape : FormulaShape := { variableCount := 3, clauseLength := 2 }

theorem formula_fits_strides :
    (literalCount negativeShape < 0 ∧
      (runOn (⟨0⟩ : Strides) (formula 8 negativeShape)).1 = .error (.draw .sampleSize)) ∧
    (literalCount emptyShape = 0 ∧ (runOn (⟨0⟩ : Strides) (formula 8 emptyShape)).1 =
      .error (.clause { text := "", fault := .noLiterals })) ∧
    (literalCount cappedShape = 2 ∧ ∃ f, (runOn (⟨0⟩ : Strides) (formula 8 cappedShape)).1 = .ok f ∧
      (f.size : Int) = 2 ∧ ∀ c ∈ f.clauses, FitsShape cappedShape c) ∧
    (balancedCount 3 = .ok 19 ∧ scaledCount 19 balancedShape.variance = .ok 1) ∧
      ∃ f, (runOn (⟨0⟩ : Strides) (formula 8 balancedShape)).1 = .ok f ∧
        max (19 - 1) 1 ≤ (f.size : Int) ∧ (f.size : Int) ≤ 19 + 1 ∧
        ∀ c ∈ f.clauses, FitsShape balancedShape c := by
  have hnegative : literalCount negativeShape < 0 := by decide
  have hempty : literalCount emptyShape = 0 := by decide
  have hcapped : (runOn (⟨0⟩ : Strides) (formula 8 cappedShape)).1 ≠ .error (.draw .exhausted) :=
    ne_of_apply_ne Except.isOk (by decide +kernel)
  have hbase : balancedCount 3 = .ok 19 := by decide
  have hdelta : scaledCount 19 balancedShape.variance = .ok 1 := by decide +kernel
  have hbalanced :
      (runOn (⟨0⟩ : Strides) (formula 8 balancedShape)).1 ≠ .error (.draw .exhausted) :=
    ne_of_apply_ne Except.isOk (by decide +kernel)
  refine ⟨⟨hnegative, ?_⟩, ⟨hempty, ?_⟩, ⟨by decide, ?_⟩, ⟨hbase, hdelta⟩, ?_⟩
  · exact ((formula_fits _ 8 negativeShape).1 1 rfl (by decide)).1 hnegative
  · exact ((formula_fits _ 8 emptyShape).1 2 rfl (by decide)).2.1 hempty
  · exact ((formula_fits _ 8 cappedShape).1 2 rfl (by decide)).2.2 (by decide) hcapped
  · exact (formula_fits _ 8 balancedShape).2 19 1 rfl hbase hdelta (by decide) (by decide) hbalanced

end Generation

end DecisionTrace
