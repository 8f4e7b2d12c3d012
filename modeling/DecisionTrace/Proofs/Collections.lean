import DecisionTrace.Dataset.Collection
import DecisionTrace.Event.Reader
import DecisionTrace.Proofs.AcceptedSearch
import DecisionTrace.Proofs.RandomFormulas

/-!
# Collections that speak for themselves

Every example of a collection can be checked from its own fields: the clauses are read back, solving
them again gives the answer, the counters and the events of the example, and the text of its trace
is read back as these events (`SelfContained`). This needs names that clauses and trace lines can
hold, and a number of clauses that can be written; a random formula has both (`Formula.Legible`).

`Collection.collect_consistent` says so of every collection that comes about, whatever the stream
yields and whatever solver does the cross-checks, together with the numbers that sum it up. No
replay fails, because the trace of every search is accepted.
-/

namespace DecisionTrace

variable {f : Formula} {events : List Event} {e : Event}

/-! ## A trace as one text -/

/-- The parts of a text between its line feeds. -/
def textLines (text : String) : List String :=
  (Text.cut (· = '\n') text.toList).map String.ofList

theorem not_mem_toList_integer (i : Int) : '\n' ∉ (Text.integer i).toList := by
  have hdigits : ∀ n, '\n' ∉ Text.naturalDigits n := by
    intro n h
    exact absurd (Text.isDigit_of_mem_naturalDigits h) (by decide)
  cases i with
  | ofNat n =>
      rw [Int.ofNat_eq_natCast, Text.toList_integer]
      exact hdigits n
  | negSucc n =>
      rw [Text.integer, String.toList_append, List.mem_append, not_or, Text.natural,
        String.toList_ofList (l := Text.naturalDigits (n + 1))]
      exact ⟨by decide, hdigits (n + 1)⟩

theorem not_mem_toList_bindingText {name : String} (h : '\n' ∉ name.toList) (value : Bool) :
    '\n' ∉ (bindingText name value).toList := by
  rw [toList_bindingText, List.mem_append, List.mem_append]
  cases value with
  | true => simp [h, Text.lowerBool]
  | false => simp [h, Text.lowerBool]

/-- A rendered event is one line if its name is. -/
theorem not_mem_toList_render (h : ∀ name ∈ e.action.name?, '\n' ∉ name.toList) :
    '\n' ∉ e.render.toList := by
  rw [Event.toList_render, List.mem_append, not_or]
  refine ⟨by simp, ?_⟩
  obtain ⟨action, depth⟩ := e
  cases action with
  | propagate name value =>
      rw [Action.toList_render_propagate, List.mem_append, not_or]
      exact ⟨by decide, not_mem_toList_bindingText (h name rfl) value⟩
  | conflict clause =>
      rw [Action.toList_render_conflict, List.mem_append, not_or]
      exact ⟨by decide, not_mem_toList_integer clause⟩
  | allSatisfied => exact (by decide : '\n' ∉ Action.allSatisfied.render.toList)
  | branch kind name value =>
      rw [Action.toList_render_branch, List.mem_append, not_or]
      refine ⟨?_, not_mem_toList_bindingText (h name rfl) value⟩
      cases kind with
      | attempt => decide
      | backtrack => decide

/-- A trace is read from its text as from its lines. -/
theorem readTrace_textLines (h : ∀ e ∈ events, '\n' ∉ e.render.toList) :
    readTrace (textLines (renderTrace events)) = readTrace (events.map Event.render) := by
  cases events with
  | nil => rfl
  | cons e events =>
      have hcut : Text.cut (· = '\n') (renderTrace (e :: events)).toList =
          ((e :: events).map Event.render).map String.toList := by
        rw [renderTrace, String.toList_intercalate]
        apply Text.cut_intercalate (by simp) _ rfl
        rw [List.map_map, List.forall_mem_map]
        intro e he ch hch
        exact decide_eq_false fun hfeed => h e he (hfeed ▸ hch)
      rw [textLines, hcut, List.map_map]
      simp [Function.comp_def]

/-! ## Legible formulas -/

/-- A formula whose clauses and whose trace can be written and read back. -/
structure Formula.Legible (f : Formula) : Prop where
  writable : ∀ c ∈ f.clauses, c.Writable
  readable : ∀ name ∈ f.names, ReadableName name
  size_le : f.size ≤ 10 ^ Text.maxDigits

namespace Formula.Legible

theorem read_render (h : f.Legible) : Formula.read (f.clauses.map Clause.render) = .ok f := by
  rw [Formula.read, readClauses_render h.writable]

theorem readableName_of_mem_trace (h : f.Legible) :
    ∀ e ∈ f.solve.trace, ∀ name ∈ e.action.name?, ReadableName name := by
  refine (explored_solve f).forall_events (P := fun e => ∀ name ∈ e.action.name?, ReadableName name)
    ?_ ?_ ?_ ?_
  · intro depth l hl name hname
    obtain rfl : l.name = name := by simpa [Literal.propagation, Action.name?] using hname
    exact h.readable _ hl
  · simp [Action.name?]
  · simp [Action.name?]
  · intro depth kind name value hname other hother
    obtain rfl : name = other := by simpa [Action.name?] using hother
    exact h.readable _ hname

theorem readTrace_text (h : f.Legible) :
    readTrace (textLines (renderTrace f.solve.trace)) = .ok f.solve.trace := by
  have hnames := h.readableName_of_mem_trace
  rw [readTrace_textLines fun e he => not_mem_toList_render fun name hname =>
    (hnames e he name hname).oneLine]
  exact (readTrace_lines_eq_ok_iff h.size_le).2 hnames

end Formula.Legible

/-- A random formula with an estimated number of clauses is legible. -/
theorem Generation.legible_of_hasShape {shape : FormulaShape} {x : Double}
    (h : HasShape shape f) (hcount : shape.clauseCount = none)
    (hvariance : shape.variance = .double x) : f.Legible := by
  have hmem : ∀ c ∈ f.clauses, ∀ l ∈ c.literals,
      l.name ∈ variableNames shape.variableCount.toNat := by
    intro c hc l hl
    exact (h.clauses c hc).names_subperm.subset (List.mem_map_of_mem hl)
  constructor
  · exact fun c hc l hl => writableName_of_mem (hmem c hc l hl)
  · intro name hname
    obtain ⟨c, hc, l, hl, rfl⟩ := Formula.mem_names.1 hname
    exact readableName_of_mem (hmem c hc l hl)
  · exact size_le_of_hasShape h hcount hvariance

/-! ## Examples -/

/-- What an example says, and what comes of reading and solving its clauses and of reading its text
again. -/
structure Reproduces (item : Json) (texts : List String) (f : Formula) (trace : String)
    (events : List Event) : Prop where
  clauses : item.field "clauses" = .ok (.strings texts)
  read : Formula.read texts = .ok f
  satisfiable : item.field "satisfiable" = .ok (.bool f.solve.verdict.isSatisfiable)
  assignment : item.field "assignment" = .ok f.solve.verdict.assignmentJson
  stats : item.field "stats" = .ok f.solve.stats.toJson
  solved : item.field "events" = .ok (traceJson f.solve.trace)
  text : item.field "text" = .ok (.string trace)
  readTrace : readTrace (textLines trace) = .ok events
  shown : item.field "events" = .ok (traceJson events)

/-- An example that can be checked from its own fields. -/
def SelfContained (item : Json) : Prop :=
  ∃ texts f trace events, Reproduces item texts f trace events

/-- Whether an example says that its formula has a model. -/
def saysSatisfiable (item : Json) : Bool :=
  match item.field "satisfiable" with
  | .ok answer => answer.isTrue
  | .error _ => false

theorem selfContained_of_legible (h : f.Legible) :
    SelfContained (SolvedFormula.toJson ⟨f, f.solve⟩) :=
  ⟨_, f, _, f.solve.trace,
    { clauses := rfl
      read := h.read_render
      satisfiable := rfl
      assignment := rfl
      stats := rfl
      solved := rfl
      text := rfl
      readTrace := h.readTrace_text
      shown := rfl }⟩

namespace Collection

/-! ## The loop over the formulas -/

variable {solver : IntegerClauses → List Int → Bool} {plan : CollectionPlan} {fs : List Formula}
  {c : Collection} {said : List LogRecord} {attempts failures : Nat}

/-- Gathering solves each formula, and no replay fails. -/
theorem gather_spec (h : gather solver plan failures fs = (.ok c, said)) :
    c.examples = fs.map (fun f => ⟨f, f.solve⟩) ∧ c.failures = 0 ∧
      c.satisfiable = c.examples.countP fun s => s.outcome.verdict.isSatisfiable := by
  induction fs generalizing failures c said with
  | nil =>
      obtain ⟨hc, -⟩ := Prod.mk.inj h
      obtain rfl := Except.ok.inj hc
      exact ⟨rfl, rfl, rfl⟩
  | cons f fs ih =>
      -- the trace of a search is accepted, so no failure is counted
      have hreplay : (if plan.replays then Replay.checkOutcome f f.solve else none) = none := by
        rw [f.checkOutcome_solve, ite_self]
      rw [gather] at h
      simp only [hreplay] at h
      split at h
      · cases h
      · split at h
        · cases h
        · next rest more hrest =>
          obtain ⟨hc, -⟩ := Prod.mk.inj h
          obtain rfl := Except.ok.inj hc
          obtain ⟨hexamples, hfailures, hsat⟩ := ih hrest
          refine ⟨?_, ?_, ?_⟩
          · rw [withExample, hexamples, List.map_cons]
          · rw [withExample, hfailures]
            rfl
          · rw [withExample, hsat, List.countP_cons]

variable {σ : Type} [WordStream σ]

theorem drawFormula_ensures (attempts : Nat) (plan : CollectionPlan) :
    Ensures (drawFormula attempts plan : Generation σ Formula) Formula.Legible fun _ => True := by
  rw [drawFormula]
  refine (Generation.ofDraw_ensures
    ((Draw.between_ensures _ _ _).mono (fun _ h => h) fun _ _ => trivial)).bind fun n _ => ?_
  refine (Generation.formula_ensures _ _).mono (fun f h => ?_) fun _ _ => trivial
  exact Generation.legible_of_hasShape h rfl rfl

/-- The formulas of a plan one after the other: the first draw that fails stops the others. -/
theorem run_drawFormulas_succ (attempts : Nat) (plan : CollectionPlan) (count : Nat) (stream : σ) :
    (drawFormulas attempts plan (count + 1)).run stream =
      match (drawFormula attempts plan).run.run stream with
      | (.error e, stream) => (([], some e), stream)
      | (.ok f, stream) =>
        match (drawFormulas attempts plan count).run stream with
        | ((fs, stopped), stream) => ((f :: fs, stopped), stream) := by
  rw [drawFormulas, StateT.run_bind]
  generalize (drawFormula attempts plan).run.run stream = drawn
  obtain ⟨result, stream⟩ := drawn
  cases result with
  | error e => rfl
  | ok f => rfl

/-- What is drawn of a plan is legible, and nothing is missing unless a draw has failed. -/
theorem drawFormulas_spec {stopped : Option GenerationError} {rest : σ} (count : Nat) {stream : σ}
    (h : (drawFormulas attempts plan count).run stream = ((fs, stopped), rest)) :
    (∀ f ∈ fs, f.Legible) ∧ (stopped = none → fs.length = count) := by
  induction count generalizing stream fs rest with
  | zero =>
      obtain ⟨rfl, rfl⟩ := Prod.mk.inj (Prod.mk.inj h).1
      exact ⟨List.forall_mem_nil _, fun _ => rfl⟩
  | succ count ih =>
      have hdraw := drawFormula_ensures attempts plan stream
      rw [run_drawFormulas_succ] at h
      split at h
      · -- a draw that fails leaves no formula after it
        obtain ⟨rfl, rfl⟩ := Prod.mk.inj (Prod.mk.inj h).1
        exact ⟨List.forall_mem_nil _, fun h => nomatch h⟩
      · next f between hdrawn =>
        rw [hdrawn] at hdraw
        split at h
        next fs more rest hrest =>
        obtain ⟨rfl, rfl⟩ := Prod.mk.inj (Prod.mk.inj h).1
        obtain ⟨hlegible, hlength⟩ := ih hrest
        refine ⟨List.forall_mem_cons.2 ⟨hdraw, hlegible⟩, fun hmore => ?_⟩
        rw [List.length_cons, hlength hmore]

/-- The examples of a collection are solved formulas that are legible, as many as were asked for. -/
theorem collect_spec {stream : σ} (h : collect solver attempts plan stream = (.ok c, said)) :
    ∃ fs : List Formula, (∀ f ∈ fs, f.Legible) ∧ fs.length = plan.count.toNat ∧
      c.examples = fs.map (fun f => ⟨f, f.solve⟩) ∧ c.failures = 0 ∧
      c.satisfiable = c.examples.countP fun s => s.outcome.verdict.isSatisfiable := by
  rw [collect] at h
  split at h
  · cases h
  · cases hdrawn : (drawFormulas attempts plan plan.count.toNat).run stream with
    | mk drawn rest =>
        obtain ⟨fs, stopped⟩ := drawn
        rw [hdrawn] at h
        obtain ⟨hlegible, hlength⟩ := drawFormulas_spec _ hdrawn
        simp only at h
        split at h
        · cases h
        · next gathered told hgather =>
          cases stopped with
          | some e => cases h
          | none =>
              obtain ⟨hc, -⟩ := Prod.mk.inj h
              obtain rfl := Except.ok.inj hc
              exact ⟨fs, hlegible, hlength rfl, gather_spec hgather⟩

/-- A collection whose object has as many examples as were asked for, counts those with and without
a model, reports no failed replay, and holds nothing but examples that can be checked from their own
fields. -/
def Consistent (c : Collection) (count : Int) : Prop :=
  ∃ (examples : List Json) (satisfiable unsatisfiable : Nat),
    c.toJson = .object
      [("examples", .array examples), ("n_sat", .integer satisfiable),
       ("n_unsat", .integer unsatisfiable), ("verification_failures", .integer 0)] ∧
    (examples.length : Int) = max count 0 ∧
    satisfiable = examples.countP saysSatisfiable ∧
    satisfiable + unsatisfiable = examples.length ∧
    ∀ item ∈ examples, SelfContained item

/-- Every collection that comes about is consistent, on every stream and with every solver. -/
theorem collect_consistent {stream : σ} (h : collect solver attempts plan stream = (.ok c, said)) :
    c.Consistent plan.count := by
  obtain ⟨fs, hlegible, hlength, hexamples, hfailures, hsat⟩ := collect_spec h
  refine ⟨c.examples.map SolvedFormula.toJson, c.satisfiable, c.unsatisfiable, ?_, ?_, ?_, ?_, ?_⟩
  · rw [toJson, hfailures]
    rfl
  · rw [List.length_map, hexamples, List.length_map, hlength]
    omega
  · rw [hsat, List.countP_map]
    rfl
  · have hle : c.satisfiable ≤ c.examples.length := hsat ▸ List.countP_le_length
    rw [unsatisfiable, List.length_map]
    omega
  · rw [hexamples, List.map_map, List.forall_mem_map]
    exact fun f hf => selfContained_of_legible (hlegible f hf)

/-- A plan for two formulas on two or three variables, without cross-checks. -/
def smallPlan : CollectionPlan where
  minVariables := 2
  maxVariables := 3
  count := 2
  crossChecks := false

theorem collect_consistent_small :
    ∃ c said, collect IntegerClauses.hasModelWith 8 smallPlan (⟨0⟩ : Strides) = (.ok c, said) ∧
      c.Consistent 2 := by
  have hok : (collect IntegerClauses.hasModelWith 8 smallPlan (⟨0⟩ : Strides)).1.isOk = true := by
    decide +kernel
  cases hcollect : collect IntegerClauses.hasModelWith 8 smallPlan (⟨0⟩ : Strides) with
  | mk result said =>
      cases result with
      | error e => rw [hcollect] at hok; cases hok
      | ok c => exact ⟨c, said, rfl, collect_consistent hcollect⟩

end Collection

end DecisionTrace
