import DecisionTrace.Proofs.ClauseText

/-!
# The plain reading of clauses

What a clause text says can be told character by character: take the parentheses away, cut at every
separator, and look at each piece by itself. The reader goes another way. It trims the text first,
and its separators take the blanks beside them along, so it never sees most of the blanks.

Both ways agree on every text, with the same error where the text is no clause
(`Clause.read_eq_plainReading`). The reason is that only the trimmed pieces count: blanks at the
ends of a text belong to its first and its last piece, and a piece is judged by the characters in it
that are not blank.

Several texts are read one after the other, and the first that is no clause gives the error
(`Formula.readClauses_eq_error_iff`).
-/

namespace DecisionTrace

variable {text : String} {texts : List String} {e : ClauseError}

/-! ## The plain rule -/

/-- A piece of a clause text without a name: there are only blanks and marks of negation in it. -/
def isNameless (piece : List Char) : Bool :=
  piece.all fun ch => Text.isBlank ch || isNegation ch

/-- The literal of a piece of a clause text. It is negated if the first character that is not blank
is a mark of negation; its name is what trimming leaves, freed of such marks and trimmed again. -/
def Literal.ofPiece (piece : List Char) : Literal where
  name := String.ofList (Text.trim ((Text.trim piece).filter fun ch => !isNegation ch))
  negated := (piece.find? fun ch => !Text.isBlank ch).any isNegation

namespace Clause

/-- A clause text without its parentheses. -/
def unenclosed (text : String) : List Char :=
  text.toList.filter fun ch => !isParenthesis ch

/-- The literals of a clause text by the plain rule: one for each piece between separators. -/
def plainReading (text : String) : Except ClauseError (List Literal) :=
  let pieces := Text.cut isSeparator (unenclosed text)
  if (unenclosed text).all Text.isBlank then .error { text, fault := .noLiterals }
  else if pieces.any isNameless then .error { text, fault := .emptyName }
  else .ok (pieces.map Literal.ofPiece)

end Clause

/-! ## Pieces -/

/-- The first character that trimming leaves is the first that is not blank. -/
theorem Text.head?_trim (cs : List Char) :
    (Text.trim cs).head? = cs.find? fun ch => !Text.isBlank ch := by
  obtain ⟨pre, post, hpre, hpost, hcs⟩ := Text.exists_eq_trim cs
  have hblank (blanks : List Char) (h : ∀ ch ∈ blanks, Text.isBlank ch = true) :
      blanks.find? (fun ch => !Text.isBlank ch) = none := by
    rw [List.find?_eq_none]
    intro ch hch
    simp [h ch hch]
  conv_rhs => rw [hcs]
  rw [List.find?_append, List.find?_append, hblank pre hpre, hblank post hpost, Option.none_or,
    Option.or_none]
  cases htrim : Text.trim cs with
  | nil => rfl
  | cons ch rest =>
      have hch : Text.isBlank ch = false := by
        have hfirst := (Text.trimmed_trim cs).1
        rw [htrim] at hfirst
        exact hfirst
      rw [List.head?_cons, List.find?_cons_of_pos (by simp [hch])]

/-- A piece is nameless exactly if nothing is left of it without blanks and marks of negation. -/
theorem trim_filter_eq_nil_iff (piece : List Char) :
    Text.trim ((Text.trim piece).filter fun ch => !isNegation ch) = [] ↔
      isNameless piece = true := by
  obtain ⟨pre, post, hpre, hpost, hpiece⟩ := Text.exists_eq_trim piece
  rw [Text.trim_eq_nil_iff, isNameless, List.all_eq_true]
  simp only [List.mem_filter, Bool.not_eq_true', Bool.or_eq_true]
  constructor
  · intro h ch hch
    rw [hpiece, List.mem_append, List.mem_append] at hch
    rcases hch with hch | hch | hch
    · exact .inl (hpre ch hch)
    · cases hneg : isNegation ch with
      | true => exact .inr rfl
      | false => exact .inl (h ch ⟨hch, hneg⟩)
    · exact .inl (hpost ch hch)
  · rintro h ch ⟨hch, hneg⟩
    exact (h ch (Text.mem_of_mem_trim hch)).resolve_right (by simp [hneg])

/-- A trimmed piece is taken for a literal exactly if it has a name. -/
theorem Literal.ofToken?_trim (piece : List Char) : Literal.ofToken? (Text.trim piece) =
    if isNameless piece then none else some (Literal.ofPiece piece) := by
  rw [Literal.ofToken?, Literal.ofPiece, Text.head?_trim]
  cases hname : Text.trim ((Text.trim piece).filter fun ch => !isNegation ch) with
  | nil => rw [if_pos ((trim_filter_eq_nil_iff piece).1 hname)]
  | cons ch rest =>
      have hne : isNameless piece ≠ true := by
        intro h
        rw [(trim_filter_eq_nil_iff piece).2 h] at hname
        cases hname
      rw [if_neg hne]

/-- Where every item either fails or has a value, a list has its values unless some item fails. -/
theorem mapM_ite {α β : Type} (fails : α → Bool) (g : α → β) (as : List α) :
    (as.mapM fun a => if fails a then none else some (g a)) =
      if as.any fails then none else some (as.map g) := by
  induction as with
  | nil => rfl
  | cons a as ih =>
      rw [List.mapM_cons, ih, List.any_cons, List.map_cons]
      cases fails a with
      | true => rfl
      | false => cases as.any fails <;> rfl

namespace Clause

/-! ## The text around the pieces -/

theorem isSeparator_of_isBlank {ch : Char} (h : Text.isBlank ch = true) :
    isSeparator ch = false := by
  by_contra hsep
  simp only [isSeparator, Bool.not_eq_false, Bool.or_eq_true, decide_eq_true_eq] at hsep
  rcases hsep with rfl | rfl <;> exact absurd h (by decide)

theorem tokens_append_of_blank {pre : List Char} (hpre : ∀ ch ∈ pre, Text.isBlank ch = true)
    (cs : List Char) : tokens (pre ++ cs) = tokens cs := by
  induction pre with
  | nil => rfl
  | cons ch pre ih =>
      rw [List.forall_mem_cons] at hpre
      rw [List.cons_append, tokens_cons_of_blank hpre.1 (isSeparator_of_isBlank hpre.1),
        ih hpre.2]

theorem tokens_append_blanks {post : List Char} (hpost : ∀ ch ∈ post, Text.isBlank ch = true)
    (cs : List Char) : tokens (cs ++ post) = tokens cs := by
  obtain ⟨pieces, last, hcut⟩ := Text.exists_cut_append isSeparator cs
  have hbehind := hcut post fun ch hch => isSeparator_of_isBlank (hpost ch hch)
  have hself := hcut [] (List.forall_mem_nil _)
  rw [List.append_nil, List.append_nil] at hself
  rw [tokens_eq_map_cut, tokens_eq_map_cut, hbehind, hself, List.map_append, List.map_append,
    List.map_singleton, List.map_singleton, Text.trim_append_blanks hpost]

/-- Trimming the text first makes no difference to its tokens. -/
theorem tokens_body (text : String) :
    tokens (body text) = (Text.cut isSeparator (unenclosed text)).map Text.trim := by
  obtain ⟨pre, post, hpre, hpost, htext⟩ := Text.exists_eq_trim (unenclosed text)
  rw [← tokens_eq_map_cut]
  conv_rhs => rw [htext, tokens_append_of_blank hpre, tokens_append_blanks hpost]
  rfl

/-- The tokens denote literals exactly if no piece is nameless. -/
theorem mapM_tokens_body (text : String) : (tokens (body text)).mapM Literal.ofToken? =
    if (Text.cut isSeparator (unenclosed text)).any isNameless then none
    else some ((Text.cut isSeparator (unenclosed text)).map Literal.ofPiece) := by
  rw [tokens_body, List.mapM_map, ← mapM_ite]
  exact congrArg (fun f => List.mapM f _) (funext Literal.ofToken?_trim)

theorem body_eq_nil_iff : body text = [] ↔ (unenclosed text).all Text.isBlank = true := by
  rw [body, ← unenclosed, Text.trim_eq_nil_iff, List.all_eq_true]

/-- Reading a clause follows the plain rule. -/
theorem map_literals_read (text : String) :
    (Clause.read text).map literals = plainReading text := by
  have htokens := mapM_tokens_body text
  rw [plainReading, read, ← body]
  cases hbody : body text with
  | nil => rw [if_pos (body_eq_nil_iff.1 hbody)]; rfl
  | cons ch cs =>
      have hblank : ¬ (unenclosed text).all Text.isBlank = true := by
        rw [← body_eq_nil_iff, hbody]
        exact List.cons_ne_nil ch cs
      rw [hbody] at htokens
      simp only [htokens, if_neg hblank]
      cases (Text.cut isSeparator (unenclosed text)).any isNameless with
      | true => rfl
      | false =>
          obtain ⟨piece, post, -, pieces, -, hcut, -, -⟩ :=
            Text.exists_separate isSeparator (unenclosed text)
          rw [hcut]
          rfl

end Clause

/-! ## Several texts -/

namespace Formula

variable {i : Nat} {cs : List Clause}

theorem readClauses_cons_of_error (h : Clause.read text = .error e) (i : Nat)
    (texts : List String) : readClauses i (text :: texts) = .error (e.atIndex i) := by
  rw [readClauses, h]

theorem readClauses_cons_of_ok {c : Clause} (h : Clause.read text = .ok c) (i : Nat)
    (texts : List String) :
    readClauses i (text :: texts) = (readClauses (i + 1) texts).map (c :: ·) := by
  rw [readClauses, h]
  cases readClauses (i + 1) texts <;> rfl

/-- Several texts are clauses exactly if each is, and the clauses keep their order. -/
theorem readClauses_eq_ok_iff : readClauses i texts = .ok cs ↔
    List.Forall₂ (fun text c => Clause.read text = .ok c) texts cs := by
  induction texts generalizing i cs with
  | nil => simp [readClauses, eq_comm]
  | cons text texts ih =>
      rw [List.forall₂_cons_left_iff]
      cases hread : Clause.read text with
      | error fault =>
          rw [readClauses_cons_of_error hread]
          simp
      | ok c =>
          rw [readClauses_cons_of_ok hread]
          simp only [Except.ok.injEq, ← ih (i := i + 1)]
          cases readClauses (i + 1) texts with
          | error fault => simp [Except.map]
          | ok cs' => simp [Except.map, eq_comm]

/-- Several texts are refused with the error of the first that is no clause, and with its place. -/
theorem readClauses_eq_error_iff : readClauses i texts = .error e ↔
    ∃ before text after e', texts = before ++ text :: after ∧
      (∀ t ∈ before, ∃ c, Clause.read t = .ok c) ∧ Clause.read text = .error e' ∧
        e = e'.atIndex (i + before.length : Nat) := by
  induction texts generalizing i with
  | nil => simp [readClauses]
  | cons first texts ih =>
      simp only [List.cons_eq_append_iff]
      cases hread : Clause.read first with
      | error fault =>
          rw [readClauses_cons_of_error hread, Except.error.injEq]
          constructor
          · rintro rfl
            exact ⟨[], first, texts, fault, .inl ⟨rfl, rfl⟩, List.forall_mem_nil _, hread, rfl⟩
          · rintro ⟨before, text, after, e', ⟨rfl, hsplit⟩ | ⟨rest, rfl, -⟩, hbefore, htext, rfl⟩
            · obtain ⟨rfl, rfl⟩ := List.cons.inj hsplit
              rw [hread] at htext
              obtain rfl := Except.error.inj htext
              rfl
            · obtain ⟨c, hc⟩ := hbefore first List.mem_cons_self
              rw [hread] at hc
              cases hc
      | ok c =>
          rw [readClauses_cons_of_ok hread]
          have hmap : (readClauses (i + 1) texts).map (c :: ·) = .error e ↔
              readClauses (i + 1) texts = .error e := by
            cases readClauses (i + 1) texts <;> simp [Except.map]
          rw [hmap, ih]
          constructor
          · rintro ⟨before, text, after, e', rfl, hbefore, htext, rfl⟩
            refine ⟨first :: before, text, after, e', .inr ⟨before, rfl, rfl⟩,
              List.forall_mem_cons.2 ⟨⟨c, hread⟩, hbefore⟩, htext, ?_⟩
            rw [List.length_cons, Nat.add_right_comm, Nat.add_assoc]
          · rintro ⟨before, text, after, e', ⟨rfl, hsplit⟩ | ⟨rest, rfl, rfl⟩, hbefore, htext, rfl⟩
            · obtain ⟨rfl, rfl⟩ := List.cons.inj hsplit
              rw [hread] at htext
              cases htext
            · refine ⟨rest, text, after, e', rfl, (List.forall_mem_cons.1 hbefore).2, htext, ?_⟩
              rw [List.length_cons, Nat.add_right_comm, Nat.add_assoc]

theorem read_eq_ok_iff {f : Formula} : Formula.read texts = .ok f ↔
    List.Forall₂ (fun text c => Clause.read text = .ok c) texts f.clauses := by
  rw [← readClauses_eq_ok_iff (i := 0), read]
  obtain ⟨clauses⟩ := f
  cases readClauses 0 texts <;> simp

theorem read_eq_error_iff : Formula.read texts = .error e ↔ readClauses 0 texts = .error e := by
  rw [read]
  cases readClauses 0 texts <;> simp

end Formula

/-! ## The reader and the plain rule -/

/-- The error of the first of several texts that is no clause: as when it is read alone, with its
place among the texts. -/
def ClauseError.IsFirstOf (texts : List String) (e : ClauseError) : Prop :=
  ∃ before text after alone, texts = before ++ text :: after ∧
    (∀ t ∈ before, ∃ c, Clause.read t = .ok c) ∧ Clause.read text = .error alone ∧
      e = { text := alone.text, fault := alone.fault, index := some (before.length : Nat) }

/-- A text is read as the plain rule says, and several texts one after the other up to the first
that is no clause. -/
theorem Clause.read_eq_plainReading :
    (∀ text, (Clause.read text).map Clause.literals = Clause.plainReading text) ∧
    (ClauseFault.noLiterals.reason = "clause has no literals" ∧
      ClauseFault.emptyName.reason = "literal has an empty variable name") ∧
    (∀ texts (f : Formula), Formula.read texts = .ok f ↔
      List.Forall₂ (fun text c => Clause.read text = .ok c) texts f.clauses) ∧
    ∀ texts e, Formula.read texts = .error e ↔ ClauseError.IsFirstOf texts e := by
  refine ⟨Clause.map_literals_read, ⟨rfl, rfl⟩, fun _ _ => Formula.read_eq_ok_iff, ?_⟩
  intro texts e
  rw [Formula.read_eq_error_iff, Formula.readClauses_eq_error_iff]
  simp only [Nat.zero_add]
  rfl

example : Clause.plainReading " (¬ A|B! ∨\t!C" =
    .ok [⟨"A", true⟩, ⟨"B", false⟩, ⟨"C", true⟩] := by decide +kernel

end DecisionTrace
