import DecisionTrace.Proofs.TraceText

/-!
# What a trace line shows

Every line is of one of three kinds. It shows an event; it is the line of a conflict whose numeral
has too many digits; or it is malformed, and then the error holds the line. The first two kinds are
described without the reader (`ShowsEvent`, `NumbersTooLong`), and the third is the rest
(`Event.read_iff_line`).

The reader takes line feeds from the end and blanks from the front, and looks at what is left of the
line. A line has one indentation, so both the number of blanks and the words behind them are settled
before the reader asks for an event (`Event.read_of_indented`).

The numeral of a conflict may be written in many ways, with zeros in front or with digits of another
script. Only for a conflict may the line of the event that is read differ from the line itself.
-/

namespace DecisionTrace

variable {cs line body digits : List Char} {text : String} {e : Event} {k d count : Nat}

/-- A line that shows an event: two blanks for each level of depth, and the line of the action. -/
def ShowsEvent (line : List Char) (e : Event) : Prop :=
  ∃ (d : Nat) (body : List Char), e.depth = d ∧ line = List.replicate (2 * d) ' ' ++ body ∧
    ShowsAction body e.action

/-- A line that numbers the clause of a conflict with more digits than can be read. -/
def NumbersTooLong (line digits : List Char) : Prop :=
  (∃ d : Nat, line =
    List.replicate (2 * d) ' ' ++ ("Conflict detected in clause ".toList ++ digits)) ∧
      (∀ ch ∈ digits, Text.isDigit ch = true) ∧ Text.maxDigits < digits.length

/-! ## Without indentation -/

/-- A line with the words of a conflict and a numeral is judged by the numeral. -/
theorem LineBody.read_of_readConflict? (h : readConflict? cs = some digits) :
    (Text.maxDigits < digits.length → LineBody.read cs = .tooManyDigits digits.length) ∧
      (digits.length ≤ Text.maxDigits →
        ∃ clause : Nat, LineBody.read cs = .action (.conflict clause)) := by
  obtain ⟨hcs, hne, hdigits⟩ := readConflict?_eq_some_iff.1 h
  have hunit := readBindingAfter?_eq_none "Unit propagation: " hcs fun _ => rfl
  have hattempt := readBindingAfter?_eq_none "Branching: try " hcs fun _ => rfl
  have hbacktrack := readBindingAfter?_eq_none "Backtrack: try " hcs fun _ => rfl
  constructor
  · intro hlong
    rw [LineBody.read, hunit, hattempt, hbacktrack, h]
    simp only [if_pos hlong]
  · intro hshort
    obtain ⟨clause, hclause, -⟩ := Text.exists_readNatural? hne hdigits
    exact ⟨clause, read_eq_action_iff.2 (.conflict hcs hne hdigits hshort hclause)⟩

theorem LineBody.read_eq_tooManyDigits_iff : LineBody.read cs = .tooManyDigits count ↔
    ∃ digits, readConflict? cs = some digits ∧ Text.maxDigits < digits.length ∧
      digits.length = count := by
  constructor
  · intro h
    unfold LineBody.read at h
    -- of the five kinds of line only a conflict can have too many digits
    split at h
    · cases h
    · split at h
      · cases h
      · split at h
        · cases h
        · split at h
          · next digits hread =>
            split at h
            · next hlong =>
              cases h
              exact ⟨digits, hread, hlong, rfl⟩
            · split at h <;> cases h
          · split at h <;> cases h
  · rintro ⟨digits, hread, hlong, rfl⟩
    exact (read_of_readConflict? hread).1 hlong

/-! ## With indentation -/

/-- A line has one indentation. -/
theorem exists_indentation (line : List Char) : ∃ (k : Nat) (body : List Char),
    line = List.replicate k ' ' ++ body ∧ body.head?.any (fun ch => ch = ' ') = false :=
  ⟨_, _, (Text.replicate_append_dropWhile ' ' line).symm, Text.any_head?_dropWhile _ line⟩

namespace Event

/-- A line is judged by the number of blanks in front and by the words behind them. -/
theorem read_of_indented (hline : dropLineFeeds text.toList = List.replicate k ' ' ++ body)
    (hbody : body.head?.any (fun ch => ch = ' ') = false) : Event.read text =
      if k % 2 ≠ 0 then
        .error (.malformed (String.ofList (dropLineFeeds text.toList)) (.oddIndentation k))
      else
        match LineBody.read body with
        | .action a => .ok ⟨a, (k / 2 : Nat)⟩
        | .tooManyDigits count => .error (.tooManyDigits count)
        | .unrecognized =>
          .error (.malformed (String.ofList (dropLineFeeds text.toList)) .unrecognized) := by
  have hdrop : (List.replicate k ' ' ++ body).dropWhile (fun ch => ch = ' ') = body := by
    rw [List.dropWhile_append_of_pos (by simp), Text.dropWhile_of_head? hbody]
  have hspaces : (List.replicate k ' ' ++ body).length - body.length = k := by simp
  rw [Event.read, hline]
  cases hwords : LineBody.read body <;> simp only [hdrop, hspaces, hwords]

theorem read_eq_ok_iff_showsEvent :
    Event.read text = .ok e ↔ ShowsEvent (dropLineFeeds text.toList) e :=
  read_eq_ok_iff

/-- A text is refused for its digits exactly if its line numbers a clause with too many. -/
theorem read_eq_tooManyDigits_iff : Event.read text = .error (.tooManyDigits count) ↔
    ∃ digits, NumbersTooLong (dropLineFeeds text.toList) digits ∧ digits.length = count := by
  constructor
  · intro h
    obtain ⟨k, body, hline, hbody⟩ := exists_indentation (dropLineFeeds text.toList)
    rw [read_of_indented hline hbody] at h
    split at h
    · cases h
    · next heven =>
      split at h
      · cases h
      · next count' hread =>
        cases h
        obtain ⟨digits, hconflict, hlong, rfl⟩ := LineBody.read_eq_tooManyDigits_iff.1 hread
        obtain ⟨hwords, -, hdigits⟩ := readConflict?_eq_some_iff.1 hconflict
        refine ⟨digits, ⟨⟨k / 2, ?_⟩, hdigits, hlong⟩, rfl⟩
        have hdouble : 2 * (k / 2) = k := by omega
        rw [hdouble, hline, hwords]
      · cases h
  · rintro ⟨digits, ⟨⟨d, hline⟩, hdigits, hlong⟩, rfl⟩
    have hne : digits ≠ [] := List.ne_nil_of_length_pos (by omega)
    have hread := readConflict?_eq_some_iff.2 ⟨rfl, hne, hdigits⟩
    rw [read_of_indented hline rfl, if_neg (by omega),
      (LineBody.read_of_readConflict? hread).1 hlong]

/-- A text that is refused for any other reason is told by its line. -/
theorem eq_of_read_malformed {other : String} {fault : LineFault}
    (h : Event.read text = .error (.malformed other fault)) :
    other = String.ofList (dropLineFeeds text.toList) := by
  obtain ⟨k, body, hline, hbody⟩ := exists_indentation (dropLineFeeds text.toList)
  rw [read_of_indented hline hbody] at h
  split at h
  · cases h
    rfl
  · split at h
    · cases h
    · cases h
    · cases h
      rfl

/-- A text is malformed exactly if its line neither shows an event nor has too many digits. -/
theorem read_eq_malformed_iff {other : String} :
    (∃ fault, Event.read text = .error (.malformed other fault)) ↔
      other = String.ofList (dropLineFeeds text.toList) ∧
        (∀ e, ¬ ShowsEvent (dropLineFeeds text.toList) e) ∧
          ∀ digits, ¬ NumbersTooLong (dropLineFeeds text.toList) digits := by
  constructor
  · rintro ⟨fault, h⟩
    refine ⟨eq_of_read_malformed h, ?_, ?_⟩
    · intro e hshows
      rw [read_eq_ok_iff_showsEvent.2 hshows] at h
      cases h
    · intro digits hlong
      rw [read_eq_tooManyDigits_iff.2 ⟨digits, hlong, rfl⟩] at h
      cases h
  · rintro ⟨rfl, hshows, hlong⟩
    cases hread : Event.read text with
    | ok e => exact absurd (read_eq_ok_iff_showsEvent.1 hread) (hshows e)
    | error failure =>
        cases failure with
        | malformed other fault => exact ⟨fault, by rw [eq_of_read_malformed hread]⟩
        | tooManyDigits count =>
            obtain ⟨digits, h, -⟩ := read_eq_tooManyDigits_iff.1 hread
            exact absurd h (hlong digits)

end Event

/-! ## Events that have been read -/

/-- What a line shows has a name that a line can hold, and numbers a clause within the limit. -/
theorem ShowsAction.spec {a : Action} (h : ShowsAction cs a) :
    (∀ name ∈ a.name?, ReadableName name) ∧
      ∀ i, a = .conflict i → 0 ≤ i ∧ Text.exceedsDigits i = false := by
  cases h with
  | propagate _ readable => simpa [Action.name?] using readable
  | branch _ readable => simpa [Action.name?] using readable
  | @conflict digits clause _ nonempty isDigit short number =>
      refine ⟨by simp [Action.name?], ?_⟩
      rintro _ ⟨⟩
      obtain ⟨n, hn, hlt⟩ := Text.exists_readNatural? nonempty isDigit
      obtain rfl : clause = n := Option.some.inj (number.symm.trans hn)
      refine ⟨Int.natCast_nonneg clause, Text.exceedsDigits_eq_false_iff.2 ?_⟩
      rw [Int.natAbs_natCast]
      exact Nat.lt_of_lt_of_le hlt (Nat.pow_le_pow_right (by decide) short)
  | allSatisfied _ => simp [Action.name?]

/-- Except for the numeral of a conflict, a line is the line of the action that it shows. -/
theorem ShowsAction.eq_render {a : Action} (h : ShowsAction cs a) (hne : ∀ i, a ≠ .conflict i) :
    cs = a.render.toList := by
  cases h with
  | propagate line _ => exact line
  | branch line _ => exact line
  | conflict _ _ _ _ _ => exact absurd rfl (hne _)
  | allSatisfied line => exact line

namespace ShowsEvent

/-- An event that has been read is read back from its own line. -/
theorem read_render (h : ShowsEvent line e) : Event.read e.render = .ok e := by
  obtain ⟨d, body, hdepth, -, haction⟩ := h
  obtain ⟨hname, hclause⟩ := haction.spec
  refine (Event.read_render_eq_ok_iff fun i hi => (hclause i hi).2).2 ⟨?_, hname, ?_⟩
  · rw [hdepth]
    exact Int.natCast_nonneg d
  · exact fun i hi => (hclause i hi).1

theorem render_eq (h : ShowsEvent line e) (hne : ∀ i, e.action ≠ .conflict i) :
    e.render = String.ofList line := by
  obtain ⟨d, body, hdepth, rfl, haction⟩ := h
  rw [← String.toList_inj, String.toList_ofList, Event.toList_render, hdepth, Int.toNat_natCast,
    haction.eq_render hne]

/-- An event that a text shows has a line as an entry, since a text has fewer than `2 ^ 63`
characters. -/
theorem render_entry (h : ShowsEvent line e) (hlength : line.length < 2 ^ 63) :
    Entry.render (.event e) = .ok e.render := by
  obtain ⟨d, body, hdepth, rfl, haction⟩ := h
  rw [List.length_append, List.length_replicate] at hlength
  refine render_event_eq_ok_iff.2 ⟨?_, fun i hi => (haction.spec.2 i hi).2, rfl⟩
  have hlong : Nat.pow 2 62 = 4611686018427387904 := by decide +kernel
  rw [hdepth]
  exact depthError?_natCast (by omega)

end ShowsEvent

/-! ## All lines -/

/-- A text is its line and line feeds behind it. -/
theorem Event.exists_eq_dropLineFeeds (cs : List Char) : ∃ k,
    cs = dropLineFeeds cs ++ List.replicate k '\n' ∧ (dropLineFeeds cs).getLast? ≠ some '\n' := by
  refine ⟨cs.reverse.length - (cs.reverse.dropWhile fun ch => ch = '\n').length, ?_, ?_⟩
  · have hsplit := Text.replicate_append_dropWhile '\n' cs.reverse
    rw [← List.reverse_inj, dropLineFeeds, List.reverse_append, List.reverse_replicate,
      List.reverse_reverse]
    exact hsplit.symm
  · intro hlast
    have hhead := Text.any_head?_dropWhile (fun ch => ch = '\n') cs.reverse
    rw [dropLineFeeds, List.getLast?_reverse] at hlast
    rw [hlast] at hhead
    exact absurd hhead (by decide)

/-- A text is read by its line, the part in front of the line feeds at its end. It gives the event
that the line shows, is refused for its digits where the line numbers a clause with too many, and is
malformed otherwise. An event that has been read is read back from its own line, which is the line
it was read from unless it is a conflict. Rendering it as an entry gives this line, for it fails
only for events that no text is long enough to show. -/
theorem Event.read_iff_line (text : String) : ∃ (line : List Char) (k : Nat),
    text.toList = line ++ List.replicate k '\n' ∧ line.getLast? ≠ some '\n' ∧
    (∀ e, Event.read text = .ok e ↔ ShowsEvent line e) ∧
    (∀ count, Event.read text = .error (.tooManyDigits count) ↔
      ∃ digits, NumbersTooLong line digits ∧ digits.length = count) ∧
    (∀ other, (∃ fault, Event.read text = .error (.malformed other fault)) ↔
      other = String.ofList line ∧ (∀ e, ¬ ShowsEvent line e) ∧
        ∀ digits, ¬ NumbersTooLong line digits) ∧
    ∀ e, ShowsEvent line e → Event.read e.render = .ok e ∧
      ((∀ i, e.action ≠ .conflict i) → e.render = String.ofList line) ∧
      (line.length < 2 ^ 63 → Entry.render (.event e) = .ok e.render) := by
  obtain ⟨k, hsplit, hlast⟩ := exists_eq_dropLineFeeds text.toList
  refine ⟨_, k, hsplit, hlast, fun _ => read_eq_ok_iff_showsEvent,
    fun _ => read_eq_tooManyDigits_iff, fun _ => read_eq_malformed_iff, ?_⟩
  intro e hshows
  exact ⟨hshows.read_render, hshows.render_eq, hshows.render_entry⟩

theorem Event.read_iff_line_nested :
    ∃ line, ShowsEvent line ⟨.branch .attempt "a = true" false, 1⟩ ∧
      line.length < 2 ^ 63 ∧
      Event.read (Event.render ⟨.branch .attempt "a = true" false, 1⟩) =
        .ok ⟨.branch .attempt "a = true" false, 1⟩ ∧
      Event.render ⟨.branch .attempt "a = true" false, 1⟩ = String.ofList line ∧
      Entry.render (.event ⟨.branch .attempt "a = true" false, 1⟩) =
        .ok (String.ofList line) := by
  obtain ⟨line, k, hsplit, -, hok, -, -, hback⟩ :=
    Event.read_iff_line "  Branching: try a = true = false\n"
  have hread : Event.read "  Branching: try a = true = false\n" =
      .ok ⟨.branch .attempt "a = true" false, 1⟩ := by decide +kernel
  have hshows := (hok _).1 hread
  obtain ⟨hagain, hsame, hentry⟩ := hback _ hshows
  have hlength : line.length < 2 ^ 63 := by
    have hle := congrArg List.length hsplit
    rw [List.length_append] at hle
    have htext : "  Branching: try a = true = false\n".toList.length = 34 := by decide
    omega
  have hrender := hsame (by simp)
  refine ⟨line, hshows, hlength, hagain, hrender, ?_⟩
  rw [hentry hlength, hrender]

example : Event.read "  Conflict detected in clause 0٣" = .ok ⟨.conflict 3, 1⟩ := by decide +kernel

end DecisionTrace
