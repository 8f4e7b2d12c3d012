import DecisionTrace.Clause.Reader
import DecisionTrace.Proofs.TextPieces
import Mathlib.Data.List.Forall2

/-!
# Clauses as texts

A clause can be written and read back exactly if every name in it is writable: not empty, without
blanks at its ends, and free of the marks that a clause text is made of. The reader drops such marks
wherever they stand, so every clause that it accepts has writable names, and reading what it has
accepted and written again changes nothing. A file with one clause on each line gives back the
formula, whatever blank lines and comments stand between (`Clause.read_render_iff`).

The reader is brought into one equation first (`Clause.read_eq_ok_iff`): the tokens of the text
without parentheses and outer blanks are, in order, tokens of the literals.
-/

namespace DecisionTrace

/-- The characters that a clause text is made of besides its names. -/
def clauseMarks : List Char :=
  ['(', ')', '∨', '|', '¬', '!']

/-- A name that a clause text can hold. -/
structure WritableName (name : String) : Prop where
  nonempty : name ≠ ""
  trimmed : Text.Trimmed name.toList
  unmarked : ∀ c ∈ name.toList, c ∉ clauseMarks

/-- A clause whose names a text can hold. -/
def Clause.Writable (c : Clause) : Prop :=
  ∀ l ∈ c.literals, WritableName l.name

variable {text : String} {c : Clause} {l : Literal} {ch : Char} {token piece : List Char}

theorem not_mem_clauseMarks_iff : ch ∉ clauseMarks ↔
    isParenthesis ch = false ∧ isSeparator ch = false ∧ isNegation ch = false := by
  simp [clauseMarks, isParenthesis, isSeparator, isNegation, and_assoc]

/-! ## The reader in one equation -/

theorem forall₂_iff_mapM {α β : Type} {f : α → Option β} {as : List α} {bs : List β} :
    as.mapM f = some bs ↔ List.Forall₂ (fun a b => f a = some b) as bs := by
  induction as generalizing bs with
  | nil => simp [eq_comm]
  | cons a as ih =>
      rw [List.mapM_cons, List.forall₂_cons_left_iff]
      simp only [Option.bind_eq_bind, Option.bind_eq_some_iff, Option.pure_def, Option.some.injEq,
        ih]
      constructor
      · rintro ⟨b, hb, rest, hrest, rfl⟩
        exact ⟨b, rest, hb, hrest, rfl⟩
      · rintro ⟨b, rest, hb, hrest, rfl⟩
        exact ⟨b, hb, rest, hrest, rfl⟩

theorem exists_of_mem_forall₂ {α β : Type} {R : α → β → Prop} {as : List α} {bs : List β} {b : β}
    (h : List.Forall₂ R as bs) (hb : b ∈ bs) : ∃ a ∈ as, R a b := by
  induction h with
  | nil => cases hb
  | @cons a b' as bs hab _ ih =>
      rcases List.mem_cons.1 hb with rfl | hb
      · exact ⟨a, List.mem_cons_self, hab⟩
      · obtain ⟨a', ha', hR⟩ := ih hb
        exact ⟨a', List.mem_cons_of_mem a ha', hR⟩

namespace Clause

/-- The part of a clause text that holds the literals. -/
def body (text : String) : List Char :=
  Text.trim (text.toList.filter fun ch => !isParenthesis ch)

theorem ofLiterals_eq_ok_iff {ls : List Literal} : ofLiterals ls = .ok c ↔ ls = c.literals := by
  obtain ⟨ls', hne⟩ := c
  cases ls with
  | nil => simp [ofLiterals, Ne.symm hne]
  | cons l ls => simp [ofLiterals]

/-- The tokens are the trimmed pieces between separators. -/
theorem tokens_eq_map_cut (cs : List Char) : tokens cs = (Text.cut isSeparator cs).map Text.trim :=
  Text.map_trim_separate isSeparator cs

/-- A text denotes a clause exactly if its tokens denote the literals. -/
theorem read_eq_ok_iff : Clause.read text = .ok c ↔
    List.Forall₂ (fun token l => Literal.ofToken? token = some l) (tokens (body text))
      c.literals := by
  rw [← forall₂_iff_mapM, read, ← body]
  cases body text with
  | nil =>
      have hnone : (tokens []).mapM Literal.ofToken? = none := rfl
      simp [hnone]
  | cons ch cs =>
      simp only
      cases (tokens (ch :: cs)).mapM Literal.ofToken? with
      | none => simp
      | some ls => simp [ofLiterals_eq_ok_iff]

/-! ## Names that have been read -/

theorem mem_of_mem_body (h : ch ∈ body text) : isParenthesis ch = false := by
  have hfilter := Text.mem_of_mem_trim h
  simpa using (List.mem_filter.1 hfilter).2

/-- A token has none of the marks that divide or enclose literals. -/
theorem unmarked_of_mem_token (htoken : token ∈ tokens (body text)) (h : ch ∈ token) :
    isParenthesis ch = false ∧ isSeparator ch = false := by
  rw [tokens_eq_map_cut, List.mem_map] at htoken
  obtain ⟨piece, hpiece, rfl⟩ := htoken
  obtain ⟨hbody, hsep⟩ := Text.mem_of_mem_cut hpiece (Text.mem_of_mem_trim h)
  exact ⟨mem_of_mem_body hbody, hsep⟩

end Clause

theorem Literal.name_of_ofToken? (h : ofToken? token = some l) :
    l.name ≠ "" ∧ l.name.toList = Text.trim (token.filter fun ch => !isNegation ch) := by
  unfold ofToken? at h
  split at h
  · cases h
  · next hne =>
    obtain rfl := Option.some.inj h
    refine ⟨fun hempty => hne ?_, String.toList_ofList⟩
    simpa using congrArg String.toList hempty

/-- The names of a clause that has been read are writable. -/
theorem Clause.writable_of_read (h : Clause.read text = .ok c) : c.Writable := by
  intro l hl
  obtain ⟨token, htoken, hof⟩ := exists_of_mem_forall₂ (read_eq_ok_iff.1 h) hl
  obtain ⟨hne, hname⟩ := Literal.name_of_ofToken? hof
  refine ⟨hne, ?_, ?_⟩
  · rw [hname]
    exact Text.trimmed_trim _
  · intro ch hch
    rw [hname] at hch
    obtain ⟨hmem, hneg⟩ := List.mem_filter.1 (Text.mem_of_mem_trim hch)
    obtain ⟨hparen, hsep⟩ := unmarked_of_mem_token htoken hmem
    exact not_mem_clauseMarks_iff.2 ⟨hparen, hsep, by simpa using hneg⟩

/-! ## Literals that are read back -/

namespace Literal

theorem toList_render (l : Literal) :
    l.render.toList = (if l.negated then ['¬'] else []) ++ l.name.toList := by
  rw [render, negationMark]
  split
  · rw [String.toList_append]
    rfl
  · rfl

theorem head?_name (h : WritableName l.name) :
    ∃ ch rest, l.name.toList = ch :: rest ∧ Text.isBlank ch = false ∧ isNegation ch = false := by
  cases hname : l.name.toList with
  | nil => exact absurd (String.toList_eq_nil_iff.1 hname) h.nonempty
  | cons ch rest =>
      have hblank : Text.isBlank ch = false := by simpa [hname] using h.trimmed.1
      have hmark := not_mem_clauseMarks_iff.1 (h.unmarked ch (by simp [hname]))
      exact ⟨ch, rest, rfl, hblank, hmark.2.2⟩

/-- A literal with a writable name is written without outer blanks. -/
theorem trimmed_render (h : WritableName l.name) : Text.Trimmed l.render.toList := by
  obtain ⟨ch, rest, hname, hblank, -⟩ := head?_name h
  have hlast := h.trimmed.2
  rw [toList_render]
  split
  · refine ⟨rfl, ?_⟩
    rw [hname] at hlast ⊢
    simpa [List.getLast?_cons] using hlast
  · exact h.trimmed

theorem unmarked_of_mem_render (h : WritableName l.name) (hch : ch ∈ l.render.toList) :
    isParenthesis ch = false ∧ isSeparator ch = false := by
  rw [toList_render, List.mem_append] at hch
  rcases hch with hch | hch
  · split at hch
    · rw [List.mem_singleton] at hch
      subst hch
      decide
    · cases hch
  · have hmark := not_mem_clauseMarks_iff.1 (h.unmarked ch hch)
    exact ⟨hmark.1, hmark.2.1⟩

/-- A literal with a writable name is read back. -/
theorem ofToken?_render (h : WritableName l.name) : ofToken? l.render.toList = some l := by
  obtain ⟨ch, rest, hname, -, hneg⟩ := head?_name h
  have hfilter : (l.render.toList.filter fun ch => !isNegation ch) = l.name.toList := by
    have hself : (l.name.toList.filter fun ch => !isNegation ch) = l.name.toList := by
      rw [List.filter_eq_self]
      intro ch hch
      simp [(not_mem_clauseMarks_iff.1 (h.unmarked ch hch)).2.2]
    rw [toList_render, List.filter_append, hself]
    split <;> rfl
  have hhead : l.render.toList.head?.any isNegation = l.negated := by
    rw [toList_render, hname]
    cases l.negated with
    | true => rfl
    | false => exact hneg
  rw [ofToken?, hfilter, Text.trim_of_trimmed h.trimmed, hhead, hname]
  simp only [Option.some.injEq]
  rw [← hname, String.ofList_toList]

theorem toList_render_ne_nil (h : WritableName l.name) : l.render.toList ≠ [] := by
  obtain ⟨ch, rest, hname, -, -⟩ := head?_name h
  rw [toList_render, hname]
  simp

end Literal

/-! ## Clauses that are read back -/

namespace Clause

variable {pieces : List (List Char)} {cs : List Char}

/-- A blank in front of a text makes no difference to its tokens. -/
theorem tokens_cons_of_blank (hblank : Text.isBlank ch = true) (hsep : isSeparator ch = false)
    (cs : List Char) : tokens (ch :: cs) = tokens cs := by
  obtain ⟨piece, pieces, hrest, hcut⟩ := Text.exists_cut_cons hsep cs
  rw [tokens_eq_map_cut, tokens_eq_map_cut, hcut, hrest, List.map_cons, List.map_cons,
    Text.trim_cons_of_blank hblank]

/-- A piece in front of the mark of disjunction is a token of its own. -/
theorem tokens_append_mark (htrim : Text.Trimmed piece)
    (hsep : ∀ ch ∈ piece, isSeparator ch = false) (cs : List Char) :
    tokens (piece ++ disjunctionMark.toList ++ cs) = piece :: tokens cs := by
  -- the blanks of the mark go to the pieces beside it, where they are trimmed away
  have hmark : piece ++ disjunctionMark.toList ++ cs = (piece ++ [' ']) ++ '∨' :: ' ' :: cs := by
    rw [List.append_assoc, List.append_assoc]
    rfl
  have hpiece : ∀ ch ∈ piece ++ [' '], isSeparator ch = false := by
    intro ch hch
    rcases List.mem_append.1 hch with hch | hch
    · exact hsep ch hch
    · rw [List.mem_singleton.1 hch]
      rfl
  have htoken : Text.trim (piece ++ [' ']) = piece :=
    Text.trim_append_of_trimmed htrim (List.forall_mem_singleton.2 rfl)
  rw [hmark, tokens_eq_map_cut, Text.cut_append_cons hpiece rfl, List.map_cons, htoken,
    ← tokens_eq_map_cut, tokens_cons_of_blank rfl rfl]

/-- The tokens of pieces with marks of disjunction between them are the pieces. -/
theorem tokens_intercalate (hne : pieces ≠ []) (htrim : ∀ piece ∈ pieces, Text.Trimmed piece)
    (hsep : ∀ piece ∈ pieces, ∀ ch ∈ piece, isSeparator ch = false) :
    tokens (disjunctionMark.toList.intercalate pieces) = pieces := by
  induction pieces with
  | nil => exact absurd rfl hne
  | cons piece pieces ih =>
      rw [List.forall_mem_cons] at htrim hsep
      cases pieces with
      | nil =>
          rw [List.intercalate_singleton, tokens_eq_map_cut, Text.cut_of_forall hsep.1,
            List.map_singleton, Text.trim_of_trimmed htrim.1]
      | cons next pieces =>
          rw [List.intercalate_cons_cons, tokens_append_mark htrim.1 hsep.1,
            ih (List.cons_ne_nil _ _) htrim.2 hsep.2]

theorem trimmed_intercalate {mark : List Char} (hne : pieces ≠ [])
    (hpieces : ∀ piece ∈ pieces, Text.Trimmed piece ∧ piece ≠ []) :
    Text.Trimmed (mark.intercalate pieces) ∧ mark.intercalate pieces ≠ [] := by
  induction pieces with
  | nil => exact absurd rfl hne
  | cons piece pieces ih =>
      rw [List.forall_mem_cons] at hpieces
      obtain ⟨⟨htrim, hpiece⟩, hrest⟩ := hpieces
      cases pieces with
      | nil =>
          rw [List.intercalate_singleton]
          exact ⟨htrim, hpiece⟩
      | cons next pieces =>
          obtain ⟨htrim', hne'⟩ := ih (List.cons_ne_nil _ _) hrest
          rw [List.intercalate_cons_cons]
          exact ⟨Text.trimmed_append htrim htrim' hpiece hne' mark, by simp [hne']⟩

theorem forall_mem_intercalate {mark : List Char} {p : Char → Prop} (hmark : ∀ ch ∈ mark, p ch)
    (hpieces : ∀ piece ∈ pieces, ∀ ch ∈ piece, p ch) : ∀ ch ∈ mark.intercalate pieces, p ch := by
  induction pieces with
  | nil => simp
  | cons piece pieces ih =>
      rw [List.forall_mem_cons] at hpieces
      cases pieces with
      | nil =>
          rw [List.intercalate_singleton]
          exact hpieces.1
      | cons next pieces =>
          rw [List.intercalate_cons_cons]
          intro ch hch
          rw [List.mem_append, List.mem_append] at hch
          rcases hch with (hch | hch) | hch
          · exact hpieces.1 ch hch
          · exact hmark ch hch
          · exact ih hpieces.2 ch hch

/-- The clause as a text, without its parentheses. -/
def inside (c : Clause) : List Char :=
  disjunctionMark.toList.intercalate (c.literals.map fun l => l.render.toList)

theorem toList_render (c : Clause) : c.render.toList = '(' :: (c.inside ++ [')']) := by
  rw [render, String.toList_append, String.toList_append, String.toList_intercalate, List.map_map]
  rfl

theorem trimmed_inside (h : c.Writable) : Text.Trimmed c.inside := by
  have hne : (c.literals.map fun l => l.render.toList) ≠ [] := by simpa using c.nonempty
  refine (trimmed_intercalate hne ?_).1
  rw [List.forall_mem_map]
  intro l hl
  exact ⟨Literal.trimmed_render (h l hl), Literal.toList_render_ne_nil (h l hl)⟩

theorem unmarked_inside (h : c.Writable) : ∀ ch ∈ c.inside, isParenthesis ch = false := by
  have hmark : ∀ ch ∈ disjunctionMark.toList, isParenthesis ch = false := by
    simp [disjunctionMark, isParenthesis]
  apply forall_mem_intercalate hmark
  rw [List.forall_mem_map]
  intro l hl ch hch
  exact (Literal.unmarked_of_mem_render (h l hl) hch).1

/-- The body of a clause as a text is the clause without its parentheses. -/
theorem body_render (h : c.Writable) : body c.render = c.inside := by
  have hself : c.inside.filter (fun ch => !isParenthesis ch) = c.inside := by
    rw [List.filter_eq_self]
    intro ch hch
    rw [unmarked_inside h ch hch]
    rfl
  rw [body, toList_render, List.filter_cons_of_neg (by decide), List.filter_append, hself,
    List.filter_cons_of_neg (by decide), List.filter_nil, List.append_nil,
    Text.trim_of_trimmed (trimmed_inside h)]

theorem tokens_inside (h : c.Writable) :
    tokens c.inside = c.literals.map fun l => l.render.toList := by
  apply tokens_intercalate (by simpa using c.nonempty)
  · rw [List.forall_mem_map]
    intro l hl
    exact Literal.trimmed_render (h l hl)
  · rw [List.forall_mem_map]
    intro l hl ch hch
    exact (Literal.unmarked_of_mem_render (h l hl) hch).2

/-- A clause with writable names is read back. -/
theorem read_render_of_writable (h : c.Writable) : Clause.read c.render = .ok c := by
  rw [read_eq_ok_iff, body_render h, tokens_inside h, List.forall₂_map_left_iff, List.forall₂_same]
  intro l hl
  exact Literal.ofToken?_render (h l hl)

end Clause

/-! ## Clause files -/

/-- A line that holds no clause: it is blank, or a comment. -/
def IdleLine (line : String) : Prop :=
  (∀ ch ∈ line.toList, Text.isBlank ch = true) ∨
    ∃ pre comment, (∀ ch ∈ pre, Text.isBlank ch = true) ∧ line.toList = pre ++ '#' :: comment

/-- The lines of a file that holds the clauses in order, one on a line, with idle lines anywhere. -/
inductive ClauseFile : List Clause → List String → Prop
  | nil : ClauseFile [] []
  | idle {clauses : List Clause} {line : String} {lines : List String} (skipped : IdleLine line)
      (rest : ClauseFile clauses lines) : ClauseFile clauses (line :: lines)
  | clause {clauses : List Clause} {lines : List String} (c : Clause)
      (rest : ClauseFile clauses lines) : ClauseFile (c :: clauses) ((c.render ++ "\n") :: lines)

theorem clauseLines_of_trim_nil {line : String} (h : Text.trim line.toList = [])
    (lines : List String) : clauseLines (line :: lines) = clauseLines lines := by
  rw [clauseLines, List.filterMap_cons, h]
  rfl

theorem clauseLines_of_trim_cons {line : String} {cs : List Char}
    (h : Text.trim line.toList = ch :: cs) (lines : List String) :
    clauseLines (line :: lines) =
      if ch = '#' then clauseLines lines else String.ofList (ch :: cs) :: clauseLines lines := by
  rw [clauseLines, List.filterMap_cons, h]
  by_cases hch : ch = '#'
  · simp [clauseLines, hch]
  · simp [clauseLines, hch]

theorem clauseLines_idle {line : String} (h : IdleLine line) (lines : List String) :
    clauseLines (line :: lines) = clauseLines lines := by
  rcases h with hblank | ⟨pre, comment, hpre, hline⟩
  · exact clauseLines_of_trim_nil (Text.trim_eq_nil_iff.2 hblank) lines
  · obtain ⟨rest, hrest⟩ := Text.exists_trim_cons (c := '#') (by decide) comment
    have htrim : Text.trim line.toList = '#' :: rest := by
      rw [hline, Text.trim_append_of_blank hpre, hrest]
    rw [clauseLines_of_trim_cons htrim, if_pos rfl]

theorem clauseLines_render (c : Clause) (lines : List String) :
    clauseLines ((c.render ++ "\n") :: lines) = c.render :: clauseLines lines := by
  have htrimmed : Text.Trimmed c.render.toList := by
    rw [Clause.toList_render]
    show Text.Trimmed (['('] ++ c.inside ++ [')'])
    exact Text.trimmed_append (by decide) (by decide) (by simp) (by simp) c.inside
  have htrim : Text.trim (c.render ++ "\n").toList = c.render.toList := by
    rw [String.toList_append]
    exact Text.trim_append_of_trimmed htrimmed (List.forall_mem_singleton.2 rfl)
  rw [Clause.toList_render] at htrim
  rw [clauseLines_of_trim_cons htrim, if_neg (by decide), ← Clause.toList_render,
    String.ofList_toList]

theorem clauseLines_of_clauseFile {clauses : List Clause} {lines : List String}
    (h : ClauseFile clauses lines) : clauseLines lines = clauses.map Clause.render := by
  induction h with
  | nil => rfl
  | idle skipped _ ih => rw [clauseLines_idle skipped, ih]
  | clause c _ ih => rw [clauseLines_render, ih, List.map_cons]

theorem readClauses_render {clauses : List Clause} (h : ∀ c ∈ clauses, c.Writable) (i : Nat) :
    Formula.readClauses i (clauses.map Clause.render) = .ok clauses := by
  induction clauses generalizing i with
  | nil => rfl
  | cons c clauses ih =>
      rw [List.forall_mem_cons] at h
      rw [List.map_cons, Formula.readClauses, Clause.read_render_of_writable h.1, ih h.2]

/-! ## Round trips -/

/-- A clause is read back from its text exactly if its names are writable, and the clauses that the
reader accepts are of this kind. A formula of such clauses is read back from a file. -/
theorem Clause.read_render_iff :
    (∀ c : Clause, Clause.read c.render = .ok c ↔ c.Writable) ∧
    (∀ text c, Clause.read text = .ok c → c.Writable ∧ Clause.read c.render = .ok c) ∧
    ∀ (f : Formula) lines, (∀ c ∈ f.clauses, c.Writable) → ClauseFile f.clauses lines →
      Formula.read (clauseLines lines) = .ok f := by
  refine ⟨?_, ?_, ?_⟩
  · exact fun c => ⟨Clause.writable_of_read, Clause.read_render_of_writable⟩
  · intro text c hread
    have hwritable := Clause.writable_of_read hread
    exact ⟨hwritable, Clause.read_render_of_writable hwritable⟩
  · intro f lines hwritable hfile
    rw [Formula.read, clauseLines_of_clauseFile hfile, readClauses_render hwritable]

/-- A clause with a blank inside a name. -/
def spaced : Clause where
  literals := [⟨"A B", true⟩, ⟨"C", false⟩, ⟨"D", true⟩]
  nonempty := List.cons_ne_nil _ _

/-- A file with one clause between a comment and a blank line. -/
def spacedFile : List String :=
  [" # one clause\n", spaced.render ++ "\n", "\t\n"]

theorem Clause.read_render_spaced :
    (Clause.read "((¬ A B | C! ) ∨¬¬D" = .ok spaced ∧ ClauseFile [spaced] spacedFile) ∧
      spaced.Writable ∧ Clause.read spaced.render = .ok spaced ∧
        Formula.read (clauseLines spacedFile) = .ok ⟨[spaced]⟩ := by
  have hread : Clause.read "((¬ A B | C! ) ∨¬¬D" = .ok spaced := by decide +kernel
  have hfile : ClauseFile [spaced] spacedFile := by
    have hcomment : IdleLine " # one clause\n" :=
      .inr ⟨[' '], " one clause\n".toList, List.forall_mem_singleton.2 rfl, rfl⟩
    have hblank : IdleLine "\t\n" := .inl (List.all_eq_true.1 (by decide))
    exact .idle hcomment (.clause spaced (.idle hblank .nil))
  obtain ⟨-, hback, hformula⟩ := Clause.read_render_iff
  obtain ⟨hwritable, hrender⟩ := hback _ _ hread
  refine ⟨⟨hread, hfile⟩, hwritable, hrender, hformula ⟨[spaced]⟩ spacedFile ?_ hfile⟩
  simpa using hwritable

end DecisionTrace
