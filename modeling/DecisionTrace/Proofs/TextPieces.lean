import DecisionTrace.Text.Blank
import Mathlib.Data.List.Basic
import Mathlib.Data.List.TakeWhile

/-!
# Pieces of texts

What trimming, cutting and matching do to a text. A text is its trimmed part between blanks
(`exists_eq_trim`), and blanks around a trimmed text are what trimming takes away
(`trim_append_of_blank`, `trim_append_of_trimmed`). A cut leaves the pieces between the separators,
and a known beginning or end of a text determines the rest.

The readers of clauses and of trace lines are made of these steps; statements about them rest on the
lemmas here and do not look into the steps again.
-/

namespace DecisionTrace.Text

variable {cs pre post piece rest : List Char} {c : Char} {stop : Char → Bool}

/-! ## Trimming -/

/-- A text without blanks at either end. -/
def Trimmed (cs : List Char) : Prop :=
  cs.head?.any isBlank = false ∧ cs.getLast?.any isBlank = false

instance : DecidablePred Trimmed :=
  fun cs => inferInstanceAs (Decidable (cs.head?.any isBlank = false ∧ _))

/-- Only the ends of a text decide whether it is trimmed. -/
theorem trimmed_append {first last : List Char} (hfirst : Trimmed first) (hlast : Trimmed last)
    (hf : first ≠ []) (hl : last ≠ []) (between : List Char) :
    Trimmed (first ++ between ++ last) := by
  constructor
  · rw [List.append_assoc, List.head?_append_of_ne_nil first hf]
    exact hfirst.1
  · rw [List.getLast?_append_of_ne_nil (first ++ between) hl]
    exact hlast.2

theorem trimmed_of_forall (h : ∀ c ∈ cs, isBlank c = false) : Trimmed cs := by
  constructor
  · rw [Option.any_eq_false]
    exact fun c hc => by simp [h c (List.mem_of_head? hc)]
  · rw [Option.any_eq_false]
    exact fun c hc => by simp [h c (List.mem_of_getLast? hc)]

theorem dropWhile_of_head? (h : cs.head?.any stop = false) : cs.dropWhile stop = cs := by
  cases cs with
  | nil => rfl
  | cons c cs =>
      have hc : stop c = false := h
      simp [hc]

theorem trimRight_append (hpost : ∀ c ∈ post, isBlank c = true)
    (hcs : cs.getLast?.any isBlank = false) : trimRight (cs ++ post) = cs := by
  have hblank : ∀ c ∈ post.reverse, isBlank c = true :=
    fun c hc => hpost c (List.mem_reverse.1 hc)
  rw [trimRight, List.reverse_append, List.dropWhile_append_of_pos hblank, dropWhile_of_head?,
    List.reverse_reverse]
  rwa [List.head?_reverse]

/-- Blanks in front of a text make no difference once it is trimmed. -/
theorem trim_append_of_blank (hpre : ∀ c ∈ pre, isBlank c = true) (cs : List Char) :
    trim (pre ++ cs) = trim cs := by
  rw [trim, trimLeft, List.dropWhile_append_of_pos hpre]
  rfl

theorem trim_cons_of_blank (hc : isBlank c = true) (cs : List Char) : trim (c :: cs) = trim cs := by
  have hpre : ∀ d ∈ [c], isBlank d = true := by simpa using hc
  exact trim_append_of_blank hpre cs

/-- Blanks behind a trimmed text are trimmed away. -/
theorem trim_append_of_trimmed (hcs : Trimmed cs) (hpost : ∀ c ∈ post, isBlank c = true) :
    trim (cs ++ post) = cs := by
  cases cs with
  | nil =>
      have hnil : post.dropWhile isBlank = [] := List.dropWhile_eq_nil_iff.2 hpost
      rw [List.nil_append, trim, trimLeft, hnil]
      rfl
  | cons c cs =>
      have hhead : (c :: cs ++ post).head?.any isBlank = false := hcs.1
      rw [trim, trimLeft, dropWhile_of_head? hhead]
      exact trimRight_append hpost hcs.2

theorem trim_of_trimmed (hcs : Trimmed cs) : trim cs = cs := by
  have hnil : ∀ c ∈ [], isBlank c = true := by simp
  have h := trim_append_of_trimmed hcs hnil
  rwa [List.append_nil] at h

theorem exists_eq_trimRight (cs : List Char) :
    ∃ post, (∀ c ∈ post, isBlank c = true) ∧ cs = trimRight cs ++ post := by
  refine ⟨(cs.reverse.takeWhile isBlank).reverse, ?_, ?_⟩
  · intro c hc
    exact List.mem_takeWhile_imp (List.mem_reverse.1 hc)
  · rw [trimRight, ← List.reverse_append, List.takeWhile_append_dropWhile, List.reverse_reverse]

/-- Only blanks are trimmed away. -/
theorem exists_eq_trim (cs : List Char) : ∃ pre post,
    (∀ c ∈ pre, isBlank c = true) ∧ (∀ c ∈ post, isBlank c = true) ∧
      cs = pre ++ (trim cs ++ post) := by
  obtain ⟨post, hpost, hright⟩ := exists_eq_trimRight (trimLeft cs)
  refine ⟨cs.takeWhile isBlank, post, fun c hc => List.mem_takeWhile_imp hc, hpost, ?_⟩
  rw [trim, ← hright]
  exact (List.takeWhile_append_dropWhile).symm

theorem mem_of_mem_trim (h : c ∈ trim cs) : c ∈ cs := by
  obtain ⟨pre, post, -, -, hcs⟩ := exists_eq_trim cs
  rw [hcs]
  simp [h]

/-- A text is trimmed to nothing exactly if it is blank. -/
theorem trim_eq_nil_iff : trim cs = [] ↔ ∀ c ∈ cs, isBlank c = true := by
  constructor
  · intro h
    obtain ⟨pre, post, hpre, hpost, hcs⟩ := exists_eq_trim cs
    rw [h, List.nil_append] at hcs
    rw [hcs]
    intro c hc
    exact (List.mem_append.1 hc).elim (hpre c) (hpost c)
  · intro h
    have hnil := trim_append_of_blank h []
    rw [List.append_nil] at hnil
    exact hnil

/-- Trimming keeps a character that is not blank at the front. -/
theorem exists_trim_cons (hc : isBlank c = false) (cs : List Char) :
    ∃ rest, trim (c :: cs) = c :: rest := by
  obtain ⟨post, hpost, hright⟩ := exists_eq_trimRight (c :: cs)
  have hhead : (c :: cs).head?.any isBlank = false := hc
  have htrim : trim (c :: cs) = trimRight (c :: cs) := by
    rw [trim, trimLeft, dropWhile_of_head? hhead]
  rw [htrim]
  cases hcs : trimRight (c :: cs) with
  | nil =>
      rw [hcs, List.nil_append] at hright
      rw [hpost c (hright ▸ List.mem_cons_self)] at hc
      cases hc
  | cons d rest =>
      rw [hcs, List.cons_append] at hright
      exact ⟨rest, by rw [(List.cons.inj hright).1]⟩

theorem any_head?_dropWhile (stop : Char → Bool) (cs : List Char) :
    (cs.dropWhile stop).head?.any stop = false := by
  have h := List.head?_dropWhile_not stop cs
  cases hhead : (cs.dropWhile stop).head? with
  | none => rfl
  | some c =>
      rw [hhead] at h
      simpa using h

theorem trimmed_trim (cs : List Char) : Trimmed (trim cs) := by
  constructor
  · have hhead : (trimLeft cs).head?.any isBlank = false := any_head?_dropWhile isBlank cs
    obtain ⟨post, -, hright⟩ := exists_eq_trimRight (trimLeft cs)
    cases htrim : trim cs with
    | nil => rfl
    | cons c rest =>
        rw [← trim, htrim] at hright
        rw [hright] at hhead
        exact hhead
  · rw [trim, trimRight, List.getLast?_reverse]
    exact any_head?_dropWhile isBlank _

/-- Blanks around a text make no difference once it is trimmed. -/
theorem trim_surround (hpre : ∀ c ∈ pre, isBlank c = true) (hpost : ∀ c ∈ post, isBlank c = true)
    (cs : List Char) : trim (pre ++ (cs ++ post)) = trim cs := by
  obtain ⟨before, behind, hbefore, hbehind, hcs⟩ := exists_eq_trim cs
  have hsplit : cs ++ post = before ++ (trim cs ++ (behind ++ post)) := by
    conv_lhs => rw [hcs]
    simp only [List.append_assoc]
  have hblank : ∀ c ∈ behind ++ post, isBlank c = true :=
    fun c hc => (List.mem_append.1 hc).elim (hbehind c) (hpost c)
  rw [trim_append_of_blank hpre, hsplit, trim_append_of_blank hbefore,
    trim_append_of_trimmed (trimmed_trim cs) hblank]

theorem trim_append_blanks (hpost : ∀ c ∈ post, isBlank c = true) (cs : List Char) :
    trim (cs ++ post) = trim cs :=
  trim_surround (List.forall_mem_nil _) hpost cs

theorem trim_trimLeft (cs : List Char) : trim (trimLeft cs) = trim cs := by
  have hblank : ∀ c ∈ cs.takeWhile isBlank, isBlank c = true := fun c => List.mem_takeWhile_imp
  conv_rhs => rw [← List.takeWhile_append_dropWhile (p := isBlank) (l := cs)]
  exact (trim_append_of_blank hblank _).symm

/-! ## Cutting -/

theorem cut_of_forall (h : ∀ c ∈ piece, stop c = false) : cut stop piece = [piece] := by
  induction piece with
  | nil => rfl
  | cons c piece ih =>
      rw [List.forall_mem_cons] at h
      simp [cut, h.1, ih h.2]

/-- The part up to the first separator is a piece of its own. -/
theorem cut_append_cons (h : ∀ c ∈ piece, stop c = false) (hc : stop c = true)
    (rest : List Char) : cut stop (piece ++ c :: rest) = piece :: cut stop rest := by
  induction piece with
  | nil => simp [cut, hc]
  | cons d piece ih =>
      rw [List.forall_mem_cons] at h
      simp [cut, h.1, ih h.2]

/-- Pieces without a separator are found again when one is put between them. -/
theorem cut_intercalate {pieces : List (List Char)} (hne : pieces ≠ [])
    (h : ∀ piece ∈ pieces, ∀ c ∈ piece, stop c = false) (hc : stop c = true) :
    cut stop ([c].intercalate pieces) = pieces := by
  induction pieces with
  | nil => exact absurd rfl hne
  | cons piece rest ih =>
      rw [List.forall_mem_cons] at h
      cases rest with
      | nil => rw [List.intercalate_singleton, cut_of_forall h.1]
      | cons next rest =>
          rw [List.intercalate_cons_cons, List.append_assoc, List.singleton_append,
            cut_append_cons h.1 hc, ih (List.cons_ne_nil _ _) h.2]

/-- What stands in front of a text and is no separator belongs to its first piece. -/
theorem exists_cut_cons (hc : stop c = false) (rest : List Char) :
    ∃ piece pieces, cut stop rest = piece :: pieces ∧
      cut stop (c :: rest) = (c :: piece) :: pieces := by
  induction rest generalizing c with
  | nil => exact ⟨[], [], rfl, by simp [cut, hc]⟩
  | cons d rest ih =>
      by_cases hd : stop d = true
      · exact ⟨[], cut stop rest, by simp [cut, hd], by simp [cut, hc, hd]⟩
      · obtain ⟨piece, pieces, -, hcut⟩ := ih (by simpa using hd)
        exact ⟨d :: piece, pieces, hcut, by rw [cut, hc, hcut]; rfl⟩

/-- What follows a text without a separator belongs to its last piece. -/
theorem exists_cut_append (stop : Char → Bool) (cs : List Char) :
    ∃ pieces last, ∀ piece, (∀ c ∈ piece, stop c = false) →
      cut stop (cs ++ piece) = pieces ++ [last ++ piece] := by
  induction cs with
  | nil => exact ⟨[], [], fun piece h => cut_of_forall h⟩
  | cons d cs ih =>
      obtain ⟨pieces, last, hcut⟩ := ih
      by_cases hd : stop d = true
      · refine ⟨[] :: pieces, last, fun piece h => ?_⟩
        rw [List.cons_append, cut, if_pos hd, hcut piece h, List.cons_append]
      · cases pieces with
        | nil =>
            refine ⟨[], d :: last, fun piece h => ?_⟩
            rw [List.cons_append, cut, if_neg hd, hcut piece h]
            rfl
        | cons first pieces =>
            refine ⟨(d :: first) :: pieces, last, fun piece h => ?_⟩
            rw [List.cons_append, cut, if_neg hd, hcut piece h]
            rfl

/-- The pieces have the characters of the text, less the separators. -/
theorem mem_of_mem_cut (hpiece : piece ∈ cut stop cs) (hc : c ∈ piece) :
    c ∈ cs ∧ stop c = false := by
  induction cs generalizing piece with
  | nil =>
      rw [cut, List.mem_singleton] at hpiece
      subst hpiece
      cases hc
  | cons d cs ih =>
      by_cases hd : stop d = true
      · rw [cut, if_pos hd, List.mem_cons] at hpiece
        rcases hpiece with rfl | hpiece
        · cases hc
        · exact (ih hpiece hc).imp_left (List.mem_cons_of_mem d)
      · obtain ⟨first, pieces, hrest, hcut⟩ := exists_cut_cons (by simpa using hd) cs
        rw [hrest] at ih
        rw [hcut, List.mem_cons] at hpiece
        rcases hpiece with rfl | hpiece
        · rcases List.mem_cons.1 hc with rfl | hc
          · exact ⟨List.mem_cons_self, by simpa using hd⟩
          · exact (ih List.mem_cons_self hc).imp_left (List.mem_cons_of_mem d)
        · exact (ih (List.mem_cons_of_mem first hpiece) hc).imp_left (List.mem_cons_of_mem d)

/-- The first pieces of both kinds of division differ in blanks at the end, the others in blanks at
both ends. -/
theorem exists_separate (stop : Char → Bool) (cs : List Char) : ∃ piece post pieces pieces',
    separate stop cs = piece :: pieces ∧ cut stop cs = (piece ++ post) :: pieces' ∧
      (∀ c ∈ post, isBlank c = true) ∧ pieces.map trim = pieces'.map trim := by
  induction cs with
  | nil => exact ⟨[], [], [], [], rfl, rfl, List.forall_mem_nil _, rfl⟩
  | cons c rest ih =>
      obtain ⟨piece, post, pieces, pieces', hseparate, hcut, hpost, hrest⟩ := ih
      rw [separate, cut, hseparate, hcut]
      by_cases hstop : stop c = true
      · refine ⟨[], [], trimLeft piece :: pieces, (piece ++ post) :: pieces', by simp [hstop],
          by simp [hstop], List.forall_mem_nil _, ?_⟩
        rw [List.map_cons, List.map_cons, trim_trimLeft, trim_append_blanks hpost, hrest]
      · by_cases habsorbed : (isBlank c && piece.isEmpty && !pieces.isEmpty) = true
        · -- the blank stands before a separator: one division drops it, the other keeps it
          have hparts := habsorbed
          simp only [Bool.and_eq_true, List.isEmpty_iff] at hparts
          obtain ⟨⟨hblank, rfl⟩, -⟩ := hparts
          have hblanks : ∀ d ∈ c :: post, isBlank d = true := List.forall_mem_cons.2 ⟨hblank, hpost⟩
          refine ⟨[], c :: post, pieces, pieces', ?_, ?_, hblanks, hrest⟩
          · simp only [if_neg hstop, if_pos habsorbed]
          · simp only [if_neg hstop, List.nil_append]
        · refine ⟨c :: piece, post, pieces, pieces', ?_, ?_, hpost, hrest⟩
          · simp only [if_neg hstop, if_neg habsorbed]
          · simp only [if_neg hstop, List.cons_append]

/-- Whether separators take the blanks beside them along makes no difference to trimmed pieces. -/
theorem map_trim_separate (stop : Char → Bool) (cs : List Char) :
    (separate stop cs).map trim = (cut stop cs).map trim := by
  obtain ⟨piece, post, pieces, pieces', hseparate, hcut, hpost, hrest⟩ := exists_separate stop cs
  rw [hseparate, hcut, List.map_cons, List.map_cons, trim_append_blanks hpost, hrest]

/-! ## Known beginnings and ends -/

/-- A text is its run of one character in front, and the rest. -/
theorem replicate_append_dropWhile (c : Char) (cs : List Char) :
    List.replicate (cs.length - (cs.dropWhile (fun d => d = c)).length) c ++
      cs.dropWhile (fun d => d = c) = cs := by
  have hsplit : cs.takeWhile (fun d => d = c) ++ cs.dropWhile (fun d => d = c) = cs :=
    List.takeWhile_append_dropWhile
  have hlength := congrArg List.length hsplit
  rw [List.length_append] at hlength
  have hrun : cs.takeWhile (fun d => d = c) =
      List.replicate (cs.length - (cs.dropWhile (fun d => d = c)).length) c :=
    List.eq_replicate_iff.2 ⟨by omega, fun d hd => by simpa using List.mem_takeWhile_imp hd⟩
  rwa [hrun] at hsplit

theorem after?_eq_some_iff {lead : List Char} :
    after? lead cs = some rest ↔ cs = lead ++ rest := by
  induction lead generalizing cs with
  | nil => simp [after?]
  | cons l lead ih =>
      cases cs with
      | nil => simp [after?]
      | cons c cs =>
          by_cases hc : l = c
          · subst hc
            simp [after?, ih]
          · simp [after?, hc, Ne.symm hc]

theorem before?_eq_some_iff {tail : List Char} :
    before? tail cs = some rest ↔ cs = rest ++ tail := by
  rw [before?, Option.map_eq_some_iff]
  constructor
  · rintro ⟨back, hback, rfl⟩
    rw [after?_eq_some_iff] at hback
    rw [← List.reverse_inj, hback]
    simp
  · rintro rfl
    exact ⟨rest.reverse, after?_eq_some_iff.2 (by simp), by simp⟩

end DecisionTrace.Text
