import DecisionTrace.CommandLine.Solve
import DecisionTrace.Proofs.CrossChecks
import DecisionTrace.Proofs.FileContents
import DecisionTrace.Proofs.PlainReading

/-!
# The exit status of the solving program

The exit status tells what became of a request: 3 when the named file is no readable text, 2 when
some clause text is no clause, 0 and 1 when the clauses have a model and when they have none.
`SolveRequest.Exits` says so without the program: it names the clause texts that a request is about,
and what the number must be for them. Whatever the program leaves behind has this number
(`SolveRequest.status_of_ends`); that the last two numbers are right is the correctness of the
search (`Formula.isRight_solve`).

For one kind of file the program leaves nothing behind. Only what the system refuses is answered
with a status; a file whose bytes are no text, or whose path holds a character that no path can
hold, is an error that nothing catches (`SolveRequest.endsAsPromised_iff`). From an accepted command
line the program ends in the same way as from the request that the line makes
(`SolveRequest.exists_program_of_line`).

Operands are texts here. Bytes of a command line that stand for no character have no place in a
text; a program that keeps them as lone surrogates can fail when it prints them, and nothing is said
here about such operands.
-/

namespace DecisionTrace

/-! ## Why a file has no text -/

/-- The file system refuses the path, with one of its own errors. -/
def FileError.IsRefusal (e : FileError) : Prop :=
  ∃ fault path, e = .system fault path

namespace FileTree

variable {t : FileTree} {path : String} {e : FileError}

theorem isRefusal_of_target (hnull : '\x00' ∉ path.toList) (h : t.target path = .error e) :
    e.IsRefusal := by
  rw [target, if_neg (by simpa using hnull)] at h
  split at h
  · cases h
    exact ⟨_, _, rfl⟩
  · split at h
    · cases h
      exact ⟨_, _, rfl⟩
    · dsimp only at h
      generalize t.follow _ _ (Path.parts path) = found at h
      cases found with
      | ok target => cases h
      | error fault =>
          cases h
          exact ⟨_, _, rfl⟩

theorem isRefusal_of_readBytes (hnull : '\x00' ∉ path.toList) (h : t.readBytes path = .error e) :
    e.IsRefusal := by
  rw [readBytes] at h
  split at h
  · next e' htarget =>
    cases h
    exact isRefusal_of_target hnull htarget
  · cases h
  · cases h
    exact ⟨_, _, rfl⟩
  · cases h
    exact ⟨_, _, rfl⟩

/-- Whatever keeps a file from being read is a refusal of the system, exactly if the path is one at
all and the bytes under it, if there are any, are those of a text. -/
theorem readText_isRefusal_iff : (∀ e, t.readText path = .error e → e.IsRefusal) ↔
    '\x00' ∉ path.toList ∧
      ∀ content, t.readBytes path = .ok content → ∃ text : String, content = text.toUTF8 := by
  constructor
  · intro h
    refine ⟨?_, ?_⟩
    · intro hnull
      have hread : t.readText path = .error .nullByte := by
        rw [readText, readBytes, target, if_pos (by simpa using hnull)]
      obtain ⟨fault, path', he⟩ := h _ hread
      cases he
    · intro content hbytes
      cases htext : String.fromUTF8? content with
      | some text => exact ⟨text, fromUTF8?_eq_some_iff.1 htext⟩
      | none =>
          have hread : t.readText path = .error .notText := by
            rw [readText, hbytes]
            simp only [htext]
          obtain ⟨fault, path', he⟩ := h _ hread
          cases he
  · rintro ⟨hnull, htexts⟩ e hread
    rw [readText] at hread
    cases hbytes : t.readBytes path with
    | error e' =>
        rw [hbytes] at hread
        cases hread
        exact isRefusal_of_readBytes hnull hbytes
    | ok content =>
        obtain ⟨text, htext⟩ := htexts content hbytes
        rw [hbytes] at hread
        simp only [fromUTF8?_eq_some_iff.2 htext] at hread
        cases hread

end FileTree

/-! ## Clause texts that are refused -/

/-- Several texts are refused exactly if one of them is no clause. -/
theorem Formula.exists_read_eq_error_iff {texts : List String} :
    (∃ e, Formula.read texts = .error e) ↔
    ∃ text ∈ texts, ∃ e, Clause.read text = .error e := by
  constructor
  · rintro ⟨e, he⟩
    obtain ⟨before, text, after, alone, rfl, -, hbad, -⟩ :=
      Formula.readClauses_eq_error_iff.1 (Formula.read_eq_error_iff.1 he)
    exact ⟨text, by simp, alone, hbad⟩
  · rintro ⟨text, hmem, e, hbad⟩
    cases hread : Formula.read texts with
    | error fault => exact ⟨fault, rfl⟩
    | ok f =>
        obtain ⟨c, -, hc⟩ := exists_of_mem_forall₂ (Formula.read_eq_ok_iff.1 hread).flip hmem
        cases hbad.symm.trans hc

namespace SolveRequest

variable {read : String → Except FileError String} {r : SolveRequest} {texts : List String}
  {n m : Nat} {e : FileError} {out : ProgramOutput}

/-! ## What a request should end with -/

/-- The clause texts that a request is about: those of the operands and after them those of the
file, and without either the example. -/
inductive Gives (read : String → Except FileError String) (r : SolveRequest) : List String → Prop
  | byDefault (noFile : r.file = none) (noClause : r.clauses = []) : Gives read r exampleClauses
  | operands (noFile : r.file = none) (clause : r.clauses ≠ []) : Gives read r r.clauses
  | withFile {path content : String} (named : r.file = some path)
      (readable : read path = .ok content) : Gives read r (r.clauses ++ fileClauses content)

/-- The number that tells what clause texts come to. -/
inductive ExitsOn (texts : List String) : Nat → Prop
  | satisfiable {f : Formula}
      (clauses : List.Forall₂ (fun text c => Clause.read text = .ok c) texts f.clauses)
      (model : ∃ a, f.satisfiedBy a = true) : ExitsOn texts 0
  | unsatisfiable {f : Formula}
      (clauses : List.Forall₂ (fun text c => Clause.read text = .ok c) texts f.clauses)
      (noModel : ¬ ∃ a, f.satisfiedBy a = true) : ExitsOn texts 1
  | badClause {text : String} {e : ClauseError} (mem : text ∈ texts)
      (bad : Clause.read text = .error e) : ExitsOn texts 2

/-- The number that tells what becomes of a request. -/
inductive Exits (read : String → Except FileError String) (r : SolveRequest) : Nat → Prop
  | unreadable {path : String} (named : r.file = some path)
      (unreadable : ∀ content, read path ≠ .ok content) : Exits read r 3
  | solved {texts : List String} {n : Nat} (gives : Gives read r texts) (exits : ExitsOn texts n) :
      Exits read r n

/-! ## What the program ends with -/

theorem status_ofFormula_satisfiable {f : Formula} (h : ∃ a, f.satisfiedBy a = true) :
    (SolveReply.ofFormula r texts f).status = .satisfiable :=
  if_pos (f.isRight_solve.satisfiable_iff.2 h)

theorem status_ofFormula_unsatisfiable {f : Formula} (h : ¬ ∃ a, f.satisfiedBy a = true) :
    (SolveReply.ofFormula r texts f).status = .unsatisfiable :=
  if_neg fun hsat => h (f.isRight_solve.satisfiable_iff.1 hsat)

/-- The number of the reply to clause texts is the one that they should end with. -/
theorem exitsOn_iff (r : SolveRequest) :
    ExitsOn texts n ↔ n = (SolveReply.ofTexts r texts).status.code := by
  constructor
  · intro h
    cases h with
    | satisfiable clauses model =>
        rw [SolveReply.ofTexts, Formula.read_eq_ok_iff.2 clauses]
        simp only [status_ofFormula_satisfiable model, SolveStatus.code]
    | unsatisfiable clauses noModel =>
        rw [SolveReply.ofTexts, Formula.read_eq_ok_iff.2 clauses]
        simp only [status_ofFormula_unsatisfiable noModel, SolveStatus.code]
    | badClause mem bad =>
        obtain ⟨e, he⟩ := Formula.exists_read_eq_error_iff.2 ⟨_, mem, _, bad⟩
        rw [SolveReply.ofTexts, he]
        rfl
  · rintro rfl
    rw [SolveReply.ofTexts]
    cases hread : Formula.read texts with
    | error e =>
        obtain ⟨text, hmem, fault, hbad⟩ := Formula.exists_read_eq_error_iff.1 ⟨e, hread⟩
        exact .badClause hmem hbad
    | ok f =>
        have hclauses := Formula.read_eq_ok_iff.1 hread
        simp only
        by_cases hmodel : ∃ a, f.satisfiedBy a = true
        · rw [status_ofFormula_satisfiable hmodel]
          exact .satisfiable hclauses hmodel
        · rw [status_ofFormula_unsatisfiable hmodel]
          exact .unsatisfiable hclauses hmodel

theorem clauseTexts_eq_ok_iff : r.clauseTexts read = .ok texts ↔ Gives read r texts := by
  constructor
  · intro h
    rw [clauseTexts] at h
    split at h
    · next hfile =>
      cases h
      split
      · next hclauses => exact .byDefault hfile (by simpa using hclauses)
      · next hclauses => exact .operands hfile (by simpa using hclauses)
    · next path hfile =>
      split at h
      · next content hread =>
        cases h
        exact .withFile hfile hread
      · cases h
  · intro h
    cases h with
    | byDefault noFile noClause => simp [clauseTexts, noFile, noClause]
    | operands noFile clause => simp [clauseTexts, noFile, clause]
    | withFile named readable => simp [clauseTexts, named, readable]

theorem clauseTexts_eq_error_iff : r.clauseTexts read = .error e ↔
    ∃ path, r.file = some path ∧ read path = .error e := by
  rw [clauseTexts]
  cases r.file with
  | none => simp
  | some path => cases hread : read path <;> simp [hread]

/-- What the program leaves behind for a request. -/
def ends (read : String → Except FileError String) (r : SolveRequest) :
    Except FileError ProgramOutput :=
  (r.reply read).map fun reply => reply.output r.debug

/-- The program on a command line leaves behind what it does on the request that the line makes. -/
theorem program_eq_ok_iff {arguments : List String} {line : ParsedLine}
    (h : grammar.parse arguments = .ok line) :
    (∃ records, program read arguments = .ok (out, records)) ↔
      (ofLine line).ends read = .ok out := by
  rw [program, h, ends]
  cases hreply : (ofLine line).reply read <;> simp [hreply, Except.map]

theorem ends_eq_of_gives (h : Gives read r texts) :
    r.ends read = .ok ((SolveReply.ofTexts r texts).output r.debug) := by
  rw [ends, reply, clauseTexts_eq_ok_iff.2 h]
  rfl

theorem exists_ends_of_refusal {path : String} (named : r.file = some path)
    (hread : read path = .error e) (h : e.IsRefusal) :
    ∃ out, r.ends read = .ok out ∧ out.status = some 3 ∧ out.stdout = "" := by
  obtain ⟨fault, path', rfl⟩ := h
  rw [ends, reply, clauseTexts_eq_error_iff.2 ⟨path, named, hread⟩]
  exact ⟨_, rfl, rfl, rfl⟩

/-- What is no refusal of the system is caught nowhere. -/
theorem ends_eq_error {path : String} (named : r.file = some path)
    (hread : read path = .error e) (h : ¬ e.IsRefusal) : r.ends read = .error e := by
  rw [ends, reply, clauseTexts_eq_error_iff.2 ⟨path, named, hread⟩]
  cases e with
  | system fault path' => exact absurd ⟨fault, path', rfl⟩ h
  | _ => rfl

/-- The program leaves something behind exactly if it is not stopped by a file that the system does
not refuse. -/
theorem exists_ends_iff : (∃ out, r.ends read = .ok out) ↔
    ∀ path, r.file = some path → ∀ e, read path = .error e → e.IsRefusal := by
  constructor
  · rintro ⟨out, hout⟩ path named e hread
    by_contra hother
    rw [ends_eq_error named hread hother] at hout
    cases hout
  · intro hrefused
    cases htexts : r.clauseTexts read with
    | ok texts => exact ⟨_, ends_eq_of_gives (clauseTexts_eq_ok_iff.1 htexts)⟩
    | error e =>
        obtain ⟨path, named, hread⟩ := clauseTexts_eq_error_iff.1 htexts
        obtain ⟨out, hout, -⟩ := exists_ends_of_refusal named hread (hrefused path named e hread)
        exact ⟨out, hout⟩

/-- Nothing is printed for texts that are refused. -/
theorem stdout_ofTexts (h : 2 ≤ (SolveReply.ofTexts r texts).status.code) :
    (SolveReply.ofTexts r texts).stdout = "" := by
  rw [SolveReply.ofTexts] at h ⊢
  cases hread : Formula.read texts with
  | error e => rfl
  | ok f =>
      rw [hread] at h
      by_cases hmodel : ∃ a, f.satisfiedBy a = true
      · simp [status_ofFormula_satisfiable hmodel, SolveStatus.code] at h
      · simp [status_ofFormula_unsatisfiable hmodel, SolveStatus.code] at h

/-! ## The number and what becomes of the request -/

/-- A request whose file has been read is about the clause texts that the program takes. -/
theorem exits_iff_of_gives (h : Gives read r texts) : Exits read r n ↔ ExitsOn texts n := by
  have htexts := clauseTexts_eq_ok_iff.2 h
  constructor
  · intro hexits
    cases hexits with
    | unreadable named unreadable =>
        cases hread : read _ with
        | ok content => exact absurd hread (unreadable content)
        | error e =>
            rw [clauseTexts_eq_error_iff.2 ⟨_, named, hread⟩] at htexts
            cases htexts
    | solved gives exits =>
        obtain rfl := Except.ok.inj (htexts.symm.trans (clauseTexts_eq_ok_iff.2 gives))
        exact exits
  · exact .solved h

theorem exits_iff_of_error {path : String} (named : r.file = some path)
    (hread : read path = .error e) : Exits read r n ↔ n = 3 := by
  constructor
  · intro hexits
    cases hexits with
    | unreadable named' unreadable => rfl
    | solved gives exits =>
        have htexts := clauseTexts_eq_ok_iff.2 gives
        rw [clauseTexts_eq_error_iff.2 ⟨path, named, hread⟩] at htexts
        cases htexts
  · rintro rfl
    exact .unreadable named (by simp [hread])

/-- Every request has a number. -/
theorem exists_exits (read : String → Except FileError String) (r : SolveRequest) :
    ∃ n, Exits read r n := by
  cases htexts : r.clauseTexts read with
  | ok texts => exact ⟨_, .solved (clauseTexts_eq_ok_iff.1 htexts) ((exitsOn_iff r).2 rfl)⟩
  | error e =>
      obtain ⟨path, named, hread⟩ := clauseTexts_eq_error_iff.1 htexts
      exact ⟨3, (exits_iff_of_error named hread).2 rfl⟩

/-- The options for printing have no part in what becomes of a request. -/
theorem Exits.withOptions (h : Exits read r n) (json quiet debug : Bool) :
    Exits read { r with json, quiet, debug } n := by
  cases h with
  | unreadable named unreadable => exact .unreadable named unreadable
  | solved gives exits =>
      refine .solved ?_ exits
      cases gives with
      | byDefault noFile noClause => exact .byDefault noFile noClause
      | operands noFile clause => exact .operands noFile clause
      | withFile named readable => exact .withFile named readable

/-- Whatever the program leaves behind has the number of the request, and nothing is printed for
what cannot be read. -/
theorem status_of_ends (h : r.ends read = .ok out) :
    (∀ n, out.status = some n ↔ Exits read r n) ∧
      (out.status = some 2 ∨ out.status = some 3 → out.stdout = "") := by
  cases htexts : r.clauseTexts read with
  | ok texts =>
      have hgives := clauseTexts_eq_ok_iff.1 htexts
      obtain rfl := Except.ok.inj (h.symm.trans (ends_eq_of_gives hgives))
      refine ⟨?_, ?_⟩
      · intro n
        rw [exits_iff_of_gives hgives, exitsOn_iff r, SolveReply.output, Option.some.injEq, eq_comm]
      · intro hstatus
        simp only [SolveReply.output, Option.some.injEq] at hstatus
        exact stdout_ofTexts (by omega)
  | error e =>
      obtain ⟨path, named, hread⟩ := clauseTexts_eq_error_iff.1 htexts
      have hrefused := exists_ends_iff.1 ⟨out, h⟩ path named e hread
      obtain ⟨out', hout, hstatus, hstdout⟩ := exists_ends_of_refusal named hread hrefused
      obtain rfl := Except.ok.inj (h.symm.trans hout)
      refine ⟨?_, fun _ => hstdout⟩
      intro n
      rw [exits_iff_of_error named hread, hstatus, Option.some.injEq, eq_comm]

/-- From an accepted command line the program ends with the number that tells what becomes of the
request, unless it is stopped by a file that the system does not refuse. -/
theorem exists_program_of_line {arguments : List String} {line : ParsedLine}
    (h : grammar.parse arguments = .ok line)
    (hfile : ∀ path, (ofLine line).file = some path → ∀ e, read path = .error e → e.IsRefusal) :
    ∃ out records, program read arguments = .ok (out, records) ∧
      (∀ n, out.status = some n ↔ Exits read (ofLine line) n) ∧
      (out.status = some 2 ∨ out.status = some 3 → out.stdout = "") := by
  obtain ⟨out, hends⟩ := exists_ends_iff.2 hfile
  obtain ⟨records, hprogram⟩ := (program_eq_ok_iff h).2 hends
  exact ⟨out, records, hprogram, status_of_ends hends⟩

/-- The program leaves something behind, with the number that tells what becomes of the request and
with nothing printed for what it cannot read, and the options for printing do not change the
number. -/
def EndsAsPromised (read : String → Except FileError String) (r : SolveRequest) : Prop :=
  ∃ out, r.ends read = .ok out ∧ (∀ n, out.status = some n ↔ Exits read r n) ∧
    (out.status = some 2 ∨ out.status = some 3 → out.stdout = "") ∧
    ∀ json quiet debug, ∃ other, { r with json, quiet, debug }.ends read = .ok other ∧
      other.status = out.status

theorem endsAsPromised_of_ends (h : r.ends read = .ok out) : EndsAsPromised read r := by
  obtain ⟨hstatus, hstdout⟩ := status_of_ends h
  refine ⟨out, h, hstatus, hstdout, ?_⟩
  intro json quiet debug
  have hrefused := exists_ends_iff.1 ⟨out, h⟩
  have hsame : ∀ path, { r with json, quiet, debug }.file = some path →
      ∀ e, read path = .error e → e.IsRefusal := hrefused
  obtain ⟨other, hother⟩ := exists_ends_iff.2 hsame
  obtain ⟨n, hn⟩ := exists_exits read r
  have hboth := ((status_of_ends hother).1 n).2 (hn.withOptions json quiet debug)
  exact ⟨other, hother, hboth.trans ((hstatus n).2 hn).symm⟩

/-- The program ends as promised unless it reads a file that the system does not refuse; and such a
file has a path that is none, or bytes that are those of no text. -/
theorem endsAsPromised_iff (r : SolveRequest) :
    (∀ read : String → Except FileError String, EndsAsPromised read r ↔
      ∀ path, r.file = some path → ∀ e, read path = .error e → e.IsRefusal) ∧
    ∀ tree : FileTree, EndsAsPromised tree.readText r ↔
      ∀ path, r.file = some path → '\x00' ∉ path.toList ∧
        ∀ content, tree.readBytes path = .ok content → ∃ text : String, content = text.toUTF8 := by
  have hread : ∀ read : String → Except FileError String, EndsAsPromised read r ↔
      ∀ path, r.file = some path → ∀ e, read path = .error e → e.IsRefusal := by
    intro read
    rw [← exists_ends_iff]
    constructor
    · rintro ⟨out, hout, -⟩
      exact ⟨out, hout⟩
    · rintro ⟨out, hout⟩
      exact endsAsPromised_of_ends hout
  refine ⟨hread, ?_⟩
  intro tree
  simp only [hread, FileTree.readText_isRefusal_iff]

/-- A directory with one file whose second byte is in no text. -/
def spoiledTree : FileTree where
  top := .directory [("f", .file ⟨#[0x41, 0xFF]⟩)]

theorem readText_spoiledTree : spoiledTree.readText "f" = .error .notText := by
  simp only [FileTree.readText, FileTree.readBytes, FileTree.target, String.contains_char_eq]
  decide +kernel

/-- A missing file and a file that is no text. -/
theorem endsAsPromised_missing :
    EndsAsPromised spoiledTree.readText { file := some "g" } ∧
      ¬ EndsAsPromised spoiledTree.readText { file := some "f" } := by
  refine ⟨?_, ?_⟩
  · rw [(endsAsPromised_iff _).2]
    rintro path ⟨⟩
    have hmissing : spoiledTree.readBytes "g" = .error (.system .noSuchFile "g") := by
      simp only [FileTree.readBytes, FileTree.target, String.contains_char_eq]
      decide +kernel
    refine ⟨by decide, ?_⟩
    intro content hcontent
    rw [hmissing] at hcontent
    cases hcontent
  · rw [(endsAsPromised_iff _).1]
    intro h
    obtain ⟨fault, path, he⟩ := h "f" rfl _ readText_spoiledTree
    cases he

/-- A file that is no text leaves the program without a number. -/
theorem not_forall_endsAsPromised :
    ¬ ∀ (tree : FileTree) (r : SolveRequest), EndsAsPromised tree.readText r := by
  intro h
  obtain ⟨out, hout, -⟩ := h spoiledTree { file := some "f" }
  have hstop : (⟨[], some "f", false, false, false⟩ : SolveRequest).ends spoiledTree.readText =
      .error .notText :=
    ends_eq_error rfl readText_spoiledTree (by rintro ⟨fault, path, he⟩; cases he)
  cases hout.symm.trans hstop

end SolveRequest

end DecisionTrace
