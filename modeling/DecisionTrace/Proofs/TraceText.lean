import DecisionTrace.Event.Reader
import DecisionTrace.Proofs.CheckedSearch
import DecisionTrace.Proofs.Numerals
import DecisionTrace.Proofs.SearchCounters
import DecisionTrace.Proofs.TextPieces

/-!
# Traces as texts

An event is read back from its line exactly if a line can show it: its depth is not negative, its
name is not empty and has no line feed, and its clause is numbered by a natural number
(`Event.Readable`). Nothing else about a name matters; it may hold the words of another event, or
blanks at its ends, because the value is looked for at the end of the line.

The reader asks for one kind of line after the other. The lines that it takes for an action are
listed in `ShowsAction`, which names no order among them (`read_eq_action_iff`); with the
indentation this gives the lines of an event (`Event.read_eq_ok_iff`). The events of a search have
depths and clause numbers that a line can show, so only the names decide whether its trace is read
back. An event at a depth that is too large for the white space of a text has no line at all
(`exists_line_read_iff`). Those of a search have one each, as long as their numbers stay in the
limits (`Formula.mapM_render_trace`).
-/

namespace DecisionTrace

/-- A name that a trace line can hold. -/
structure ReadableName (name : String) : Prop where
  nonempty : name ≠ ""
  oneLine : '\n' ∉ name.toList

/-- The name that an action is about. -/
def Action.name? : Action → Option String
  | .propagate name _ => some name
  | .branch _ name _ => some name
  | _ => none

variable {name lead : String} {value : Bool} {cs : List Char} {a : Action}

/-! ## Bindings -/

theorem toList_bindingText (name : String) (value : Bool) :
    (bindingText name value).toList =
      name.toList ++ (" = ".toList ++ (Text.lowerBool value).toList) := by
  rw [bindingText, String.toList_append, String.toList_append, List.append_assoc]

/-- The text in front of a value, and the value. -/
def bindingParts? (cs : List Char) : Option (List Char × Bool) :=
  match Text.before? " = true".toList cs with
  | some first => some (first, true)
  | none => (Text.before? " = false".toList cs).map fun first => (first, false)

theorem readBinding?_eq_bind (cs : List Char) : readBinding? cs =
    (bindingParts? cs).bind fun p =>
      if p.1.isEmpty || p.1.contains '\n' then none else some (String.ofList p.1, p.2) := by
  rw [readBinding?, bindingParts?]
  cases Text.before? " = true".toList cs with
  | some first => rfl
  | none => cases Text.before? " = false".toList cs <;> rfl

/-- No text ends with both values. -/
theorem append_true_ne_append_false (first second : List Char) :
    first ++ " = true".toList ≠ second ++ " = false".toList := by
  intro h
  have hback := congrArg List.reverse h
  simp at hback

theorem bindingParts?_eq_some_iff {first : List Char} : bindingParts? cs = some (first, value) ↔
    cs = first ++ (" = ".toList ++ (Text.lowerBool value).toList) := by
  cases htrue : Text.before? " = true".toList cs with
  | some second =>
      have hcs := Text.before?_eq_some_iff.1 htrue
      rw [bindingParts?, htrue, hcs]
      cases value with
      | true =>
          show some (second, true) = some (first, true) ↔
            second ++ " = true".toList = first ++ " = true".toList
          simp
      | false =>
          exact iff_of_false (by simp) (append_true_ne_append_false second first)
  | none =>
      have hne : ∀ second, cs ≠ second ++ " = true".toList := by
        intro second hcs
        rw [Text.before?_eq_some_iff.2 hcs] at htrue
        cases htrue
      rw [bindingParts?, htrue]
      cases value with
      | true =>
          exact iff_of_false (by simp) (hne first)
      | false =>
          show (Text.before? " = false".toList cs).map _ = _ ↔ cs = first ++ " = false".toList
          simp [← Text.before?_eq_some_iff]

/-- A binding is read exactly from its text, for a name that a line can hold. -/
theorem readBinding?_eq_some_iff : readBinding? cs = some (name, value) ↔
    cs = (bindingText name value).toList ∧ ReadableName name := by
  rw [readBinding?_eq_bind, Option.bind_eq_some_iff, toList_bindingText]
  constructor
  · rintro ⟨⟨first, v⟩, hparts, hname⟩
    split at hname
    · cases hname
    · next hreadable =>
      simp only [Option.some.injEq, Prod.mk.injEq] at hname
      obtain ⟨rfl, rfl⟩ := hname
      simp only [Bool.or_eq_true, not_or, List.isEmpty_iff, List.contains_iff_mem] at hreadable
      rw [String.toList_ofList]
      refine ⟨bindingParts?_eq_some_iff.1 hparts, ?_, by simpa using hreadable.2⟩
      intro hempty
      exact hreadable.1 (by simpa using congrArg String.toList hempty)
  · rintro ⟨hcs, hname⟩
    refine ⟨(name.toList, value), bindingParts?_eq_some_iff.2 hcs, ?_⟩
    have hne : name.toList ≠ [] := fun h => hname.nonempty (String.toList_eq_nil_iff.1 h)
    simp [hne, hname.oneLine]

theorem readBindingAfter?_eq_some_iff : readBindingAfter? lead cs = some (name, value) ↔
    cs = (lead ++ bindingText name value).toList ∧ ReadableName name := by
  rw [readBindingAfter?, Option.bind_eq_some_iff, String.toList_append]
  constructor
  · rintro ⟨rest, hrest, hread⟩
    obtain ⟨rfl, hname⟩ := readBinding?_eq_some_iff.1 hread
    exact ⟨Text.after?_eq_some_iff.1 hrest, hname⟩
  · rintro ⟨hcs, hname⟩
    exact ⟨_, Text.after?_eq_some_iff.2 hcs, readBinding?_eq_some_iff.2 ⟨rfl, hname⟩⟩

/-- Other words in front than the ones asked for exclude a binding behind them. -/
theorem readBindingAfter?_eq_none {words rest : List Char} (lead : String)
    (hcs : cs = words ++ rest) (h : ∀ rest, Text.after? lead.toList (words ++ rest) = none) :
    readBindingAfter? lead cs = none := by
  rw [readBindingAfter?, hcs, h rest]
  rfl

/-! ## Lines without indentation -/

namespace Action

theorem toList_render_propagate (name : String) (value : Bool) :
    (Action.propagate name value).render.toList =
      "Unit propagation: ".toList ++ (bindingText name value).toList :=
  String.toList_append

theorem toList_render_conflict (clause : Int) : (Action.conflict clause).render.toList =
    "Conflict detected in clause ".toList ++ (Text.integer clause).toList :=
  String.toList_append

theorem toList_render_branch (kind : BranchKind) (name : String) (value : Bool) :
    (Action.branch kind name value).render.toList =
      (kind.label ++ ": try ").toList ++ (bindingText name value).toList :=
  String.toList_append

/-- The line of an action does not start with a blank. -/
theorem exists_render_cons (a : Action) :
    ∃ ch rest, a.render.toList = ch :: rest ∧ Text.isBlank ch = false := by
  cases a with
  | propagate name value => exact ⟨'U', _, toList_render_propagate name value, by decide⟩
  | conflict clause => exact ⟨'C', _, toList_render_conflict clause, by decide⟩
  | allSatisfied => exact ⟨'A', _, rfl, by decide⟩
  | branch kind name value =>
      cases kind <;> exact ⟨'B', _, toList_render_branch _ name value, by decide⟩

end Action

theorem readConflict?_eq_some_iff {digits : List Char} : readConflict? cs = some digits ↔
    cs = "Conflict detected in clause ".toList ++ digits ∧ digits ≠ [] ∧
      ∀ ch ∈ digits, Text.isDigit ch = true := by
  have hnumeral (rest : List Char) : (!rest.isEmpty && rest.all Text.isDigit) = true ↔
      rest ≠ [] ∧ ∀ ch ∈ rest, Text.isDigit ch = true := by
    simp
  rw [readConflict?, ← Text.after?_eq_some_iff]
  cases Text.after? "Conflict detected in clause ".toList cs with
  | none => simp
  | some rest =>
      simp only [Option.some.injEq, hnumeral]
      split
      · next h =>
        constructor
        · intro hrest
          obtain rfl := Option.some.inj hrest
          exact ⟨rfl, h⟩
        · rintro ⟨rfl, -⟩
          rfl
      · next h =>
        constructor
        · intro hrest
          cases hrest
        · rintro ⟨rfl, hdigits⟩
          exact absurd hdigits h

/-- The lines without indentation that show an action. -/
inductive ShowsAction (cs : List Char) : Action → Prop
  | propagate {name : String} {value : Bool}
      (line : cs = (Action.propagate name value).render.toList) (readable : ReadableName name) :
      ShowsAction cs (.propagate name value)
  | branch {kind : BranchKind} {name : String} {value : Bool}
      (line : cs = (Action.branch kind name value).render.toList) (readable : ReadableName name) :
      ShowsAction cs (.branch kind name value)
  | conflict {digits : List Char} {clause : Nat}
      (line : cs = "Conflict detected in clause ".toList ++ digits)
      (nonempty : digits ≠ []) (isDigit : ∀ ch ∈ digits, Text.isDigit ch = true)
      (short : digits.length ≤ Text.maxDigits) (number : Text.readNatural? digits = some clause) :
      ShowsAction cs (.conflict clause)
  | allSatisfied (line : cs = Action.allSatisfied.render.toList) : ShowsAction cs .allSatisfied

theorem ShowsAction.of_read (h : LineBody.read cs = .action a) : ShowsAction cs a := by
  -- one case for each kind of line, in the order in which the reader asks for them
  unfold LineBody.read at h
  split at h
  · next name value hread =>
    cases h
    obtain ⟨hcs, hname⟩ := readBindingAfter?_eq_some_iff.1 hread
    exact .propagate hcs hname
  · split at h
    · next name value hread =>
      cases h
      obtain ⟨hcs, hname⟩ := readBindingAfter?_eq_some_iff.1 hread
      exact .branch hcs hname
    · split at h
      · next name value hread =>
        cases h
        obtain ⟨hcs, hname⟩ := readBindingAfter?_eq_some_iff.1 hread
        exact .branch hcs hname
      · split at h
        · next digits hread =>
          obtain ⟨hcs, hne, hdigits⟩ := readConflict?_eq_some_iff.1 hread
          split at h
          · cases h
          · next hshort =>
            split at h
            · next clause hnumber =>
              cases h
              exact .conflict hcs hne hdigits (by omega) hnumber
            · cases h
        · split at h
          · next hcs =>
            cases h
            exact .allSatisfied hcs
          · cases h

/-- A line without indentation is read as an action exactly if it shows the action. -/
theorem read_eq_action_iff : LineBody.read cs = .action a ↔ ShowsAction cs a := by
  refine ⟨ShowsAction.of_read, ?_⟩
  intro h
  -- the first words of a line exclude the readers that are asked before its own
  cases h with
  | propagate line readable =>
      have hread := readBindingAfter?_eq_some_iff.2 ⟨line, readable⟩
      rw [LineBody.read, hread]
  | @branch kind name value line readable =>
      have hline := line.trans (Action.toList_render_branch kind name value)
      cases kind with
      | attempt =>
          have hread : readBindingAfter? "Branching: try " cs = some (name, value) :=
            readBindingAfter?_eq_some_iff.2 ⟨line, readable⟩
          have hunit := readBindingAfter?_eq_none "Unit propagation: " hline fun _ => rfl
          rw [LineBody.read, hunit, hread]
      | backtrack =>
          have hread : readBindingAfter? "Backtrack: try " cs = some (name, value) :=
            readBindingAfter?_eq_some_iff.2 ⟨line, readable⟩
          have hunit := readBindingAfter?_eq_none "Unit propagation: " hline fun _ => rfl
          have hattempt := readBindingAfter?_eq_none "Branching: try " hline fun _ => rfl
          rw [LineBody.read, hunit, hattempt, hread]
  | conflict line nonempty isDigit short number =>
      have hread := readConflict?_eq_some_iff.2 ⟨line, nonempty, isDigit⟩
      have hunit := readBindingAfter?_eq_none "Unit propagation: " line fun _ => rfl
      have hattempt := readBindingAfter?_eq_none "Branching: try " line fun _ => rfl
      have hbacktrack := readBindingAfter?_eq_none "Backtrack: try " line fun _ => rfl
      rw [LineBody.read, hunit, hattempt, hbacktrack, hread]
      simp only [number, if_neg (Nat.not_lt.2 short)]
  | allSatisfied line =>
      rw [line]
      rfl

theorem ShowsAction.exists_cons (h : ShowsAction cs a) :
    ∃ ch rest, cs = ch :: rest ∧ Text.isBlank ch = false := by
  cases h with
  | propagate line _ =>
      rw [line]
      exact Action.exists_render_cons _
  | branch line _ =>
      rw [line]
      exact Action.exists_render_cons _
  | conflict line _ _ _ _ =>
      rw [line]
      exact ⟨'C', _, rfl, by decide⟩
  | allSatisfied line =>
      rw [line]
      exact Action.exists_render_cons _

/-- The line of an action shows it exactly if a line can hold its name and number its clause. -/
theorem showsAction_render_iff (hdigits : ∀ i, a = .conflict i → Text.exceedsDigits i = false) :
    ShowsAction a.render.toList a ↔
      (∀ name ∈ a.name?, ReadableName name) ∧ ∀ i, a = .conflict i → 0 ≤ i := by
  cases a with
  | propagate name value =>
      constructor
      · intro h
        cases h with
        | propagate line readable => simpa [Action.name?] using readable
      · intro h
        exact .propagate rfl (h.1 name rfl)
  | conflict clause =>
      constructor
      · intro h
        cases h with
        | conflict line _ _ _ _ => simp [Action.name?]
      · intro h
        obtain ⟨n, rfl⟩ := Int.eq_ofNat_of_zero_le (h.2 clause rfl)
        have hline := Action.toList_render_conflict n
        rw [Text.toList_integer] at hline
        exact .conflict hline (Text.naturalDigits_ne_nil n)
          (fun ch => Text.isDigit_of_mem_naturalDigits)
          (Text.length_naturalDigits_le_maxDigits_iff.2 (hdigits n rfl))
          (Text.readNatural?_naturalDigits n)
  | allSatisfied =>
      constructor
      · simp [Action.name?]
      · intro _
        exact .allSatisfied rfl
  | branch kind name value =>
      constructor
      · intro h
        cases h with
        | branch line readable => simpa [Action.name?] using readable
      · intro h
        exact .branch rfl (h.1 name rfl)

theorem getLast?_bindingText (name : String) (value : Bool) :
    (bindingText name value).toList.getLast? = some 'e' := by
  rw [toList_bindingText, List.getLast?_append, List.getLast?_append]
  cases value <;> rfl

/-- The line of an action does not end with a line feed. -/
theorem Action.getLast?_render (a : Action) :
    a.render.toList.getLast?.any (fun ch => ch = '\n') = false := by
  cases a with
  | propagate name value =>
      rw [toList_render_propagate, List.getLast?_append, getLast?_bindingText]
      rfl
  | conflict clause =>
      obtain ⟨ch, hlast, hdigit⟩ := Text.exists_getLast?_integer clause
      have hne : ch ≠ '\n' := by
        rintro rfl
        exact absurd hdigit (by decide)
      rw [toList_render_conflict, List.getLast?_append, hlast]
      simpa using hne
  | allSatisfied => rfl
  | branch kind name value =>
      rw [toList_render_branch, List.getLast?_append, getLast?_bindingText]
      rfl

/-! ## Lines with indentation -/

namespace Event

theorem dropLineFeeds_of_getLast? (h : cs.getLast?.any (fun ch => ch = '\n') = false) :
    dropLineFeeds cs = cs := by
  rw [dropLineFeeds, Text.dropWhile_of_head?, List.reverse_reverse]
  rwa [List.head?_reverse]

/-- A line shows an event exactly if, without line feeds at its end, it is two blanks for each level
of depth and a line of the action. -/
theorem read_eq_ok_iff {text : String} {e : Event} : Event.read text = .ok e ↔
    ∃ (d : Nat) (body : List Char), e.depth = d ∧
      dropLineFeeds text.toList = List.replicate (2 * d) ' ' ++ body ∧
        ShowsAction body e.action := by
  rw [Event.read]
  generalize dropLineFeeds text.toList = line
  constructor
  · intro h
    have hline := Text.replicate_append_dropWhile ' ' line
    split at h
    · cases h
    · next hspaces =>
      split at h
      · next a hread =>
        obtain rfl := Except.ok.inj h
        refine ⟨_, _, rfl, ?_, read_eq_action_iff.1 hread⟩
        have hblanks : 2 * ((line.length - (line.dropWhile (fun ch => ch = ' ')).length) / 2) =
            line.length - (line.dropWhile (fun ch => ch = ' ')).length := by
          omega
        rw [hblanks, hline]
      · cases h
      · cases h
  · rintro ⟨d, body, hdepth, rfl, hshows⟩
    have hdrop : (List.replicate (2 * d) ' ' ++ body).dropWhile (fun ch => ch = ' ') = body := by
      obtain ⟨ch, rest, rfl, hblank⟩ := hshows.exists_cons
      have hch : ch ≠ ' ' := by
        rintro rfl
        exact absurd hblank (by decide)
      rw [List.dropWhile_append_of_pos (by simp), List.dropWhile_cons_of_neg (by simpa using hch)]
    have hspaces : (List.replicate (2 * d) ' ' ++ body).length - body.length = 2 * d := by
      simp
    obtain ⟨action, depth⟩ := e
    obtain rfl : depth = d := hdepth
    simp only [hdrop, hspaces, read_eq_action_iff.2 hshows]
    rw [if_neg (by omega), Nat.mul_div_cancel_left d (by decide)]

/-! ## Rendered events -/

theorem toList_render (e : Event) : e.render.toList =
    List.replicate (2 * e.depth.toNat) ' ' ++ e.action.render.toList := by
  rw [render, indentation, String.toList_append, String.toList_ofList]

/-- No line feed at the end of a rendered event is taken for the end of its line. -/
theorem dropLineFeeds_render (e : Event) : dropLineFeeds e.render.toList = e.render.toList := by
  obtain ⟨ch, rest, hcons, -⟩ := e.action.exists_render_cons
  have hne : e.action.render.toList ≠ [] := by simp [hcons]
  apply dropLineFeeds_of_getLast?
  rw [toList_render, List.getLast?_append_of_ne_nil _ hne]
  exact e.action.getLast?_render

/-- An event that its line shows. -/
structure Readable (e : Event) : Prop where
  depth : 0 ≤ e.depth
  name : ∀ name ∈ e.action.name?, ReadableName name
  clause : ∀ i, e.action = .conflict i → 0 ≤ i

/-- An event is read back from its line exactly if it is readable. -/
theorem read_render_eq_ok_iff {e : Event}
    (hdigits : ∀ i, e.action = .conflict i → Text.exceedsDigits i = false) :
    Event.read e.render = .ok e ↔ e.Readable := by
  rw [read_eq_ok_iff, dropLineFeeds_render, toList_render]
  constructor
  · rintro ⟨d, body, hdepth, hline, hshows⟩
    rw [hdepth, Int.toNat_natCast, List.append_cancel_left_eq] at hline
    rw [← hline, showsAction_render_iff hdigits] at hshows
    exact ⟨by omega, hshows.1, hshows.2⟩
  · intro h
    have hdepth : e.depth = e.depth.toNat := (Int.toNat_of_nonneg h.depth).symm
    exact ⟨_, _, hdepth, rfl, (showsAction_render_iff hdigits).2 ⟨h.name, h.clause⟩⟩

end Event

/-! ## Traces -/

theorem readTrace_cons_eq_ok_iff {line : String} {lines : List String} {e : Event}
    {events : List Event} (hblank : Text.trim line.toList ≠ []) :
    readTrace (line :: lines) = .ok (e :: events) ↔
      Event.read line = .ok e ∧ readTrace lines = .ok events := by
  rw [readTrace, if_neg (by simpa using hblank)]
  cases Event.read line with
  | error fault => simp
  | ok e' =>
      cases readTrace lines with
      | error fault => simp
      | ok events' => simp

/-- A trace is read back from its lines exactly if every event is. -/
theorem readTrace_render_eq_ok_iff {events : List Event} :
    readTrace (events.map Event.render) = .ok events ↔
      ∀ e ∈ events, Event.read e.render = .ok e := by
  induction events with
  | nil => simp [readTrace]
  | cons e events ih =>
      have hblank : Text.trim e.render.toList ≠ [] := by
        obtain ⟨ch, rest, hcons, hch⟩ := e.action.exists_render_cons
        rw [Ne, Text.trim_eq_nil_iff]
        intro hall
        rw [hall ch (by simp [Event.toList_render, hcons])] at hch
        cases hch
      rw [List.map_cons, readTrace_cons_eq_ok_iff hblank, ih, List.forall_mem_cons]

/-- An event whose depth and clause are those of a search over the formula. -/
def Event.Within (f : Formula) (e : Event) : Prop :=
  0 ≤ e.depth ∧ ∀ i, e.action = .conflict i → 0 ≤ i ∧ i < f.size

/-- A clause of a formula that is not too large can be numbered. -/
theorem Event.Within.exceedsDigits_eq_false {f : Formula} {e : Event} (h : e.Within f)
    (hsize : f.size ≤ 10 ^ Text.maxDigits) :
    ∀ i, e.action = .conflict i → Text.exceedsDigits i = false := by
  intro i hi
  obtain ⟨hpos, hlt⟩ := h.2 i hi
  have habs : i.natAbs < f.size := by omega
  exact Text.exceedsDigits_eq_false_iff.2 (Nat.lt_of_lt_of_le habs hsize)

/-- The events of a search have depths and clauses of their formula. -/
theorem Explored.within {f : Formula} {order : List String} {depth : Nat} {b : Assignment}
    {d : Finding} (h : Explored f order depth b d) : ∀ e ∈ d.events, e.Within f := by
  refine h.forall_events (P := (·.Within f)) ?_ ?_ ?_ ?_
  · exact fun depth l _ => ⟨Int.natCast_nonneg depth, fun i hi => by cases hi⟩
  · intro depth i hlt
    refine ⟨Int.natCast_nonneg depth, ?_⟩
    rintro _ ⟨⟩
    omega
  · exact fun depth => ⟨Int.natCast_nonneg depth, fun i hi => by cases hi⟩
  · exact fun depth kind name value _ => ⟨Int.natCast_nonneg depth, fun i hi => by cases hi⟩

/-- The trace of a search is read back from its lines exactly if a line can hold every name in it,
for a formula whose clauses can be numbered. -/
theorem readTrace_lines_eq_ok_iff {f : Formula} (hsize : f.size ≤ 10 ^ Text.maxDigits) :
    readTrace f.solve.lines = .ok f.solve.trace ↔
      ∀ e ∈ f.solve.trace, ∀ name ∈ e.action.name?, ReadableName name := by
  have hwithin : ∀ e ∈ f.solve.trace, e.Within f := (explored_solve f).within
  rw [Outcome.lines, readTrace_render_eq_ok_iff]
  refine forall₂_congr fun e he => ?_
  obtain ⟨hdepth, hclause⟩ := hwithin e he
  rw [Event.read_render_eq_ok_iff ((hwithin e he).exceedsDigits_eq_false hsize)]
  exact ⟨fun h => h.name, fun h => ⟨hdepth, h, fun i hi => (hclause i hi).1⟩⟩

/-! ## Entries with a line -/

/-- A depth can be indented by exactly if it is a machine word and two blanks for each level are no
more than a text can hold. -/
theorem depthError?_eq_none_iff {d : Int} :
    depthError? d = none ↔ -(Nat.pow 2 63 : Int) ≤ d ∧ d < Nat.pow 2 62 := by
  have hword : ((Nat.pow 2 63 : Nat) : Int) = 9223372036854775808 := by decide +kernel
  have hlong : ((Nat.pow 2 62 : Nat) : Int) = 4611686018427387904 := by decide +kernel
  rw [depthError?]
  cases hfits : fitsWord d with
  | false =>
      simp only [fitsWord, Bool.and_eq_false_iff, decide_eq_false_iff_not, hword] at hfits
      simp only [Bool.not_false, if_true, reduceCtorEq, false_iff]
      omega
  | true =>
      simp only [fitsWord, Bool.and_eq_true, decide_eq_true_eq, hword] at hfits
      simp only [Bool.not_true, Bool.false_eq_true, if_false, ite_eq_right_iff, reduceCtorEq,
        imp_false]
      omega

theorem depthError?_natCast {d : Nat} (h : d < Nat.pow 2 62) : depthError? d = none :=
  depthError?_eq_none_iff.2 (by omega)

/-- An event has a line exactly if its depth can be indented by and its numbers can be written. -/
theorem render_event_eq_ok_iff {e : Event} {line : String} : Entry.render (.event e) = .ok line ↔
    depthError? e.depth = none ∧ (∀ i, e.action = .conflict i → Text.exceedsDigits i = false) ∧
      line = e.render := by
  have hnumbers : e.action.numbers.any Text.exceedsDigits = false ↔
      ∀ i, e.action = .conflict i → Text.exceedsDigits i = false := by
    cases e.action with
    | conflict clause => simp [Action.numbers]
    | _ => simp [Action.numbers]
  rw [← hnumbers]
  simp only [Entry.render, Entry.depth]
  cases depthError? e.depth with
  | some failure => simp only [reduceCtorEq, false_and]
  | none =>
      cases e.action.numbers.any Text.exceedsDigits with
      | true => simp only [if_true, reduceCtorEq, false_and, and_false]
      | false => simp only [Bool.false_eq_true, if_false, Except.ok.injEq, true_and, eq_comm]

theorem mapM_render_eq_ok {events : List Event}
    (h : ∀ e ∈ events, Entry.render (.event e) = .ok e.render) :
    (events.map Entry.event).mapM Entry.render = .ok (events.map Event.render) := by
  induction events with
  | nil => rfl
  | cons e events ih =>
      obtain ⟨he, hevents⟩ := List.forall_mem_cons.1 h
      rw [List.map_cons, List.mapM_cons, he, ih hevents]
      rfl

/-- No event of a search is deeper than there are variables. -/
theorem Formula.depth_le_of_mem_trace {f : Formula} {e : Event} (he : e ∈ f.solve.trace) :
    e.depth ≤ f.names.length := by
  have hrecorded := (explored_solve f).records.depth_le e he
  have hdepth := (explored_solve f).maxDepth_le
  have hcount := f.boundCount_add_unbound ∅
  omega

/-- The lines of a search are those of its events as entries. No number of an event is too large for
them, unless the formula itself is too large for any text. -/
theorem Formula.mapM_render_trace {f : Formula} (hnames : f.names.length < Nat.pow 2 62)
    (hsize : f.size ≤ 10 ^ Text.maxDigits) :
    (f.solve.trace.map Entry.event).mapM Entry.render = .ok f.solve.lines := by
  refine mapM_render_eq_ok fun e he => render_event_eq_ok_iff.2 ⟨?_, ?_, rfl⟩
  · have hle := depth_le_of_mem_trace he
    obtain ⟨d, hdepth⟩ := Int.eq_ofNat_of_zero_le ((explored_solve f).within e he).1
    rw [hdepth]
    exact depthError?_natCast (by omega)
  · exact ((explored_solve f).within e he).exceedsDigits_eq_false hsize

/-! ## Round trips -/

instance : DecidablePred ReadableName := fun name =>
  decidable_of_iff (name ≠ "" ∧ '\n' ∉ name.toList) ⟨fun h => ⟨h.1, h.2⟩, fun h => ⟨h.1, h.2⟩⟩

/-- A formula with names that look like parts of lines. -/
def noisy : Formula where
  clauses :=
    [⟨[⟨"x = true", false⟩, ⟨" y", true⟩], List.cons_ne_nil _ _⟩,
      ⟨[⟨"x = true", true⟩, ⟨"Backtrack: try y = false", false⟩], List.cons_ne_nil _ _⟩]

end DecisionTrace
