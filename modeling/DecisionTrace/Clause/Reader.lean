import DecisionTrace.Formula
import DecisionTrace.Text.Blank
import DecisionTrace.Text.Decimal

/-!
# Reading clauses

A clause is written as literals between `∨` or `|`, a negated literal with `¬` or `!` in front.
Parentheses may stand anywhere and mean nothing, and a negation mark inside a name is dropped, so
that reading accepts what people type and still gives names that can be written back.

A text is refused when nothing but blanks is left of it, or when some literal has no name. An
error shows the whole clause text, and its place when the clause was one of several.
-/

namespace DecisionTrace

/-- Why a text is no clause. -/
inductive ClauseFault where
  /-- Nothing is left of the text. -/
  | noLiterals
  /-- Some literal has no name. -/
  | emptyName
  /-- A cause in the words of a caller; it may be empty. -/
  | stated (reason : String)
deriving DecidableEq, Repr

/-- The cause in words. -/
def ClauseFault.reason : ClauseFault → String
  | .noLiterals => "clause has no literals"
  | .emptyName => "literal has an empty variable name"
  | .stated reason => reason

/-- A text that is no clause, with its place among several when it has one. -/
structure ClauseError where
  text : String
  fault : ClauseFault
  index : Option Int := none
deriving DecidableEq, Repr

namespace ClauseError

/-- The error with the place of the clause among several. -/
def atIndex (e : ClauseError) (i : Int) : ClauseError :=
  { e with index := some i }

/-- The part of a message that names the cause; a cause without words has none. -/
def reasonLine (reason : String) : String :=
  if reason.isEmpty then "" else "\n  Reason: " ++ reason

/-- The message of a text that is no clause. -/
def message (e : ClauseError) : String :=
  let place := match e.index with
    | some i => " #" ++ Text.integer i
    | none => ""
  "Invalid clause" ++ place ++ ": " ++ Text.quoted e.text ++ reasonLine e.fault.reason

end ClauseError

/-- A parenthesis. -/
def isParenthesis (c : Char) : Bool :=
  c = '(' || c = ')'

/-- A mark between literals. -/
def isSeparator (c : Char) : Bool :=
  c = '∨' || c = '|'

/-- A mark of negation. -/
def isNegation (c : Char) : Bool :=
  c = '¬' || c = '!'

namespace Literal

/-- The literal that a trimmed token denotes: a leading mark negates it, and its name is what is
left without the marks. -/
def ofToken? (token : List Char) : Option Literal :=
  match Text.trim (token.filter fun c => !isNegation c) with
  | [] => none
  | name => some ⟨String.ofList name, token.head?.any isNegation⟩

/-- The literal that a text denotes. -/
def read (text : String) : Except ClauseError Literal :=
  let token := Text.trim text.toList
  match ofToken? token with
  | some l => .ok l
  | none => .error { text := String.ofList token, fault := .emptyName }

end Literal

namespace Clause

/-- The clause of a list of literals. -/
def ofLiterals : List Literal → Except ClauseError Clause
  | [] => .error { text := "", fault := .noLiterals }
  | l :: ls => .ok ⟨l :: ls, List.cons_ne_nil l ls⟩

/-- The tokens of a clause text without parentheses: the pieces between separators, which take the
blanks beside them along. A token is trimmed, for the ends of the text may be blank as well. -/
def tokens (cs : List Char) : List (List Char) :=
  (Text.separate isSeparator cs).map Text.trim

/-- The clause that a text denotes. -/
def read (text : String) : Except ClauseError Clause :=
  match Text.trim (text.toList.filter fun c => !isParenthesis c) with
  | [] => .error { text, fault := .noLiterals }
  | c :: cs =>
    match (tokens (c :: cs)).mapM Literal.ofToken? with
    | some ls => ofLiterals ls
    | none => .error { text, fault := .emptyName }

end Clause

namespace Formula

/-- The clauses of a list of texts whose first has place `i`. -/
def readClauses (i : Nat) : List String → Except ClauseError (List Clause)
  | [] => .ok []
  | text :: texts =>
    match Clause.read text with
    | .error e => .error (e.atIndex i)
    | .ok c =>
      match readClauses (i + 1) texts with
      | .error e => .error e
      | .ok cs => .ok (c :: cs)

/-- The formula of a list of clause texts; the first text that is no clause decides the error. -/
def read (texts : List String) : Except ClauseError Formula :=
  match readClauses 0 texts with
  | .error e => .error e
  | .ok cs => .ok ⟨cs⟩

end Formula

/-- The clause texts of a file, given line by line: each line is trimmed, and blank lines and
those that start with `#` are left out. -/
def clauseLines (lines : List String) : List String :=
  lines.filterMap fun line =>
    match Text.trim line.toList with
    | [] => none
    | c :: cs => if c = '#' then none else some (String.ofList (c :: cs))

end DecisionTrace
