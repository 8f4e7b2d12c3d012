import DecisionTrace.Dataset.Split
import DecisionTrace.Proofs.Collections

/-!
# More attempts change nothing

Every draw is handed a number of attempts, and only running out of them depends on that number: a
draw that has not run out gives the same with more attempts, and leaves the stream in the same
place. So a statement about all numbers of attempts is one about draws that wait as long as they
must, on every stream on which they end.

`Persists` compares two draws in this way. As for `Ensures`, there is one rule for each way of
building a draw and one lemma for each draw of the library. From these lemmas the same follows of
whatever the library draws: random formulas (`Generation.runOn_formula_eq`), datasets
(`Dataset.create_eq`) and collections (`Collection.collect_eq`).
-/

namespace DecisionTrace

variable {ε σ α β : Type}

/-- On every stream on which the first draw does not fail for the given reason, the second gives the
same and leaves the same stream. -/
def Persists (reason : ε) (d d' : ExceptT ε (StateM σ) α) : Prop :=
  ∀ stream, (d.run.run stream).1 ≠ .error reason → d'.run.run stream = d.run.run stream

namespace Persists

variable {reason : ε} {d d' : ExceptT ε (StateM σ) α} {f f' : α → ExceptT ε (StateM σ) β}

theorem refl (d : ExceptT ε (StateM σ) α) : Persists reason d d :=
  fun _ _ => rfl

theorem throw (d' : ExceptT ε (StateM σ) α) : Persists reason (throw reason) d' :=
  fun _ h => absurd rfl h

theorem bind (hd : Persists reason d d') (hf : ∀ a, Persists reason (f a) (f' a)) :
    Persists reason (d >>= f) (d' >>= f') := by
  intro stream h
  have hfirst := hd stream
  simp only [ExceptT.run_bind, StateT.run_bind] at h ⊢
  generalize d.run.run stream = drawn at h hfirst ⊢
  obtain ⟨result, rest⟩ := drawn
  cases result with
  | error e =>
      -- the whole draw fails for the reason of its first part
      rw [hfirst fun he => h (by cases he; rfl)]
      rfl
  | ok a =>
      rw [hfirst nofun]
      exact hf a rest h

end Persists

namespace Draw

variable [WordStream σ] {a b : Nat}

theorem belowWithin_persists (h : a ≤ b) (n k : Nat) :
    Persists .exhausted (belowWithin n k a : Draw σ (Fin n)) (belowWithin n k b) := by
  induction a generalizing b with
  | zero => exact .throw _
  | succ a ih =>
    obtain ⟨b, rfl⟩ : ∃ c, b = c + 1 := ⟨b - 1, by omega⟩
    rw [belowWithin, belowWithin]
    refine (Persists.refl _).bind fun r => ?_
    split
    · exact .refl _
    · exact ih (by omega)

theorem below_persists (h : a ≤ b) (n : Nat) :
    Persists .exhausted (below a n : Draw σ (Fin n)) (below b n) :=
  belowWithin_persists h n _

theorem between_persists (h : a ≤ b) (low high : Int) :
    Persists .exhausted (between a low high : Draw σ Int) (between b low high) := by
  rw [between, between]
  split
  · exact .refl _
  · exact (below_persists h _).bind fun _ => .refl _

theorem fromPool_persists (h : a ≤ b) (k : Nat) (pool : List α) :
    Persists .exhausted (fromPool a k pool : Draw σ (List α)) (fromPool b k pool) := by
  induction k generalizing pool with
  | zero => exact .refl _
  | succ k ih =>
    rw [fromPool, fromPool]
    split
    · exact .refl _
    · exact (below_persists h _).bind fun _ => (ih _).bind fun _ => .refl _

theorem freshWithin_persists (h : a ≤ b) {n s t : Nat} (hst : s ≤ t) (drawn : List (Fin n)) :
    Persists .exhausted (freshWithin a n drawn s : Draw σ (Fin n)) (freshWithin b n drawn t) := by
  induction s generalizing t with
  | zero => exact .throw _
  | succ s ih =>
    obtain ⟨t, rfl⟩ : ∃ c, t = c + 1 := ⟨t - 1, by omega⟩
    rw [freshWithin, freshWithin]
    refine (below_persists h n).bind fun j => ?_
    split
    · exact ih (by omega)
    · exact .refl _

theorem freshIndices_persists (h : a ≤ b) (n k : Nat) (drawn : List (Fin n)) :
    Persists .exhausted (freshIndices a n k drawn : Draw σ (List (Fin n)))
      (freshIndices b n k drawn) := by
  induction k generalizing drawn with
  | zero => exact .refl _
  | succ k ih =>
    rw [freshIndices, freshIndices]
    exact (freshWithin_persists h h drawn).bind fun _ => (ih _).bind fun _ => .refl _

theorem sample_persists (h : a ≤ b) (items : List α) (k : Int) :
    Persists .exhausted (sample a items k : Draw σ (List α)) (sample b items k) := by
  rw [sample, sample]
  split
  · exact .refl _
  · split
    · exact fromPool_persists h _ items
    · exact (freshIndices_persists h _ _ _).bind fun _ => .refl _

theorem shuffleFrom_persists (h : a ≤ b) (i : Nat) (items : Array α) :
    Persists .exhausted (shuffleFrom a i items : Draw σ (Array α)) (shuffleFrom b i items) := by
  induction i generalizing items with
  | zero => exact .refl _
  | succ i ih =>
    rw [shuffleFrom, shuffleFrom]
    exact (below_persists h _).bind fun _ => ih _

theorem shuffle_persists (h : a ≤ b) (items : List α) :
    Persists .exhausted (shuffle a items : Draw σ (List α)) (shuffle b items) := by
  rw [shuffle, shuffle]
  exact (shuffleFrom_persists h _ _).bind fun _ => .refl _

end Draw

/-! ## Random formulas -/

namespace Generation

theorem ofDraw_persists {d d' : Draw σ α} (h : Persists .exhausted d d') :
    Persists (.draw .exhausted) (ofDraw d) (ofDraw d') := by
  intro stream hends
  have hrun : ∀ d : Draw σ α, (ofDraw d).run.run stream =
      ((d.run.run stream).1.mapError GenerationError.draw, (d.run.run stream).2) := fun _ => rfl
  rw [hrun] at hends
  rw [hrun, hrun, h stream fun hlast => hends (by rw [hlast]; rfl)]

variable [WordStream σ] {a b : Nat}

theorem clauseCount_persists (h : a ≤ b) (shape : FormulaShape) :
    Persists (.draw .exhausted) (clauseCount a shape : Generation σ Int)
      (clauseCount b shape) := by
  rw [clauseCount, clauseCount]
  split
  · exact .refl _
  · split
    · exact .refl _
    · split
      · exact .refl _
      · exact ofDraw_persists (Draw.between_persists h _ _)

theorem clause_persists (h : a ≤ b) (names : List String) (k : Int) :
    Persists (.draw .exhausted) (clause a names k : Generation σ Clause) (clause b names k) := by
  rw [clause, clause]
  exact (ofDraw_persists (Draw.sample_persists h names k)).bind fun _ => .refl _

theorem clauses_persists (h : a ≤ b) (names : List String) (k : Int) (count : Nat) :
    Persists (.draw .exhausted) (clauses a names k count : Generation σ (List Clause))
      (clauses b names k count) := by
  induction count with
  | zero => exact .refl _
  | succ count ih =>
    rw [clauses, clauses]
    exact (clause_persists h names k).bind fun _ => ih.bind fun _ => .refl _

theorem formula_persists (h : a ≤ b) (shape : FormulaShape) :
    Persists (.draw .exhausted) (formula a shape : Generation σ Formula) (formula b shape) := by
  rw [formula, formula]
  refine (clauseCount_persists h shape).bind fun _ => ?_
  exact (clauses_persists h _ _ _).bind fun _ => .refl _

/-- A random formula whose draws have ended is the same with more attempts. -/
theorem runOn_formula_eq (h : a ≤ b) {shape : FormulaShape} {stream : σ}
    (hends : (runOn stream (formula a shape)).1 ≠ .error (.draw .exhausted)) :
    runOn stream (formula b shape) = runOn stream (formula a shape) :=
  formula_persists h shape stream hends

end Generation

/-! ## Datasets -/

namespace Dataset

variable [WordStream σ] {a b : Nat}

theorem shuffledSplit_eq (h : a ≤ b) {examples : List α} {testSize : Int} {stream : σ}
    (hends : shuffledSplit a examples testSize stream ≠ .error .exhausted) :
    shuffledSplit b examples testSize stream = shuffledSplit a examples testSize stream := by
  have hdrawn := Draw.shuffle_persists h examples stream
  rw [shuffledSplit, Draw.runOn] at hends
  rw [shuffledSplit, shuffledSplit, Draw.runOn, Draw.runOn, hdrawn]
  intro hlast
  rw [hlast] at hends
  exact hends rfl

/-- A dataset whose draws have ended is written in the same way with more attempts. -/
theorem create_eq (h : a ≤ b) {room : CallRoom} {tree : FileTree} {data : Json}
    {target : DatasetTarget} {stream : σ}
    (hends : create room a tree data target stream ≠ .error (.draw .exhausted)) :
    create room b tree data target stream = create room a tree data target stream := by
  cases hdirectory : tree.ensureDirectories (Path.parse target.directory) room.directories with
  | error e => simp only [create, hdirectory]
  | ok made =>
      cases hdata : (data.field "examples").bind Json.items with
      | error e => simp only [create, hdirectory, hdata]
      | ok examples =>
          simp only [create, hdirectory, hdata] at hends ⊢
          rw [shuffledSplit_eq h]
          intro hlast
          rw [hlast] at hends
          exact hends rfl

end Dataset

/-! ## Collections -/

namespace Collection

variable [WordStream σ] {a b : Nat} {solver : IntegerClauses → List Int → Bool}
  {plan : CollectionPlan} {c : Collection} {said : List LogRecord}

theorem drawFormula_persists (h : a ≤ b) (plan : CollectionPlan) :
    Persists (.draw .exhausted) (drawFormula a plan : Generation σ Formula)
      (drawFormula b plan) := by
  rw [drawFormula, drawFormula]
  refine (Generation.ofDraw_persists (Draw.between_persists h _ _)).bind fun _ => ?_
  exact Generation.formula_persists h _

theorem drawFormulas_eq (h : a ≤ b) (count : Nat) {stream rest : σ} {fs : List Formula}
    (hdrawn : (drawFormulas a plan count).run stream = ((fs, none), rest)) :
    (drawFormulas b plan count).run stream = ((fs, none), rest) := by
  induction count generalizing stream fs rest with
  | zero => exact hdrawn
  | succ count ih =>
      have hfirst := drawFormula_persists h plan stream
      rw [run_drawFormulas_succ] at hdrawn ⊢
      generalize (drawFormula a plan).run.run stream = drawn at hdrawn hfirst
      obtain ⟨result, between⟩ := drawn
      cases result with
      | error e => cases hdrawn
      | ok f =>
          rw [hfirst nofun]
          dsimp only at hdrawn ⊢
          generalize hrest : (drawFormulas a plan count).run between = others at hdrawn
          obtain ⟨⟨fs, stopped⟩, last⟩ := others
          obtain ⟨hboth, rfl⟩ := Prod.mk.inj hdrawn
          obtain ⟨rfl, rfl⟩ := Prod.mk.inj hboth
          rw [ih hrest]

/-- A collection that has come about is the same with more attempts. -/
theorem collect_eq (h : a ≤ b) {stream : σ}
    (hcollected : collect solver a plan stream = (.ok c, said)) :
    collect solver b plan stream = (.ok c, said) := by
  rw [collect] at hcollected ⊢
  split at hcollected
  · cases hcollected
  · next hcount =>
    rw [if_neg hcount]
    generalize hdrawn : (drawFormulas a plan plan.count.toNat).run stream = drawn at hcollected
    obtain ⟨⟨fs, stopped⟩, rest⟩ := drawn
    cases stopped with
    | none =>
        rw [drawFormulas_eq h _ hdrawn]
        exact hcollected
    | some e =>
        -- a draw that has failed leaves no collection
        dsimp only at hcollected
        split at hcollected <;> cases hcollected

end Collection

end DecisionTrace
