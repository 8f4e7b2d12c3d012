import DecisionTrace.Text.Blank

/-!
# Paths

A path is a list of names below the working directory or below a root. Reading one drops empty
names and single dots, so there are many spellings of a path and one text; `..` stays, because what
it means depends on the files. Exactly two leading slashes are a root of their own.
-/

namespace DecisionTrace

/-- Where a path starts. -/
inductive PathRoot where
  | workingDirectory
  | slash
  | doubleSlash
deriving DecidableEq, Repr

/-- The text in front of the names. -/
def PathRoot.text : PathRoot → String
  | .workingDirectory => ""
  | .slash => "/"
  | .doubleSlash => "//"

/-- A path: where it starts, and the names to follow from there. -/
structure Path where
  root : PathRoot := .workingDirectory
  names : List String := []
deriving DecidableEq, Repr

namespace Path

/-- The root that a text starts with. -/
def rootOf : List Char → PathRoot
  | ['/', '/'] => .doubleSlash
  | '/' :: '/' :: c :: _ => if c = '/' then .slash else .doubleSlash
  | '/' :: _ => .slash
  | _ => .workingDirectory

/-- The parts of a text between slashes. -/
def parts (text : String) : List String :=
  (Text.cut (· = '/') text.toList).map String.ofList

/-- The path that a text spells. -/
def parse (text : String) : Path where
  root := rootOf text.toList
  names := (parts text).filter fun part => part ≠ "" ∧ part ≠ "."

/-- The text of a path; the working directory itself is a dot. -/
def text (p : Path) : String :=
  match p.root, p.names with
  | .workingDirectory, [] => "."
  | root, names => root.text ++ "/".intercalate names

/-- Whether the path starts at a root. -/
def isAbsolute (p : Path) : Bool :=
  p.root ≠ .workingDirectory

/-- A path followed from another; an absolute one forgets the other. -/
def join (p q : Path) : Path :=
  if q.isAbsolute then q else { p with names := p.names ++ q.names }

/-- The path without its last name. -/
def parent (p : Path) : Path :=
  { p with names := p.names.dropLast }

/-- The last name up to its last dot, unless that dot opens or ends the name. -/
def stem (p : Path) : String :=
  let name := ((p.names.getLast?).getD "").toList
  let extension := name.reverse.takeWhile (· ≠ '.')
  let base := name.take (name.length - extension.length - 1)
  if extension.isEmpty || base.isEmpty || extension.length = name.length then String.ofList name
  else String.ofList base

end Path

/-- The text of a path that is followed from a given directory unless it is absolute. -/
def resolvePath (path directory : String) : String :=
  let p := Path.parse path
  if p.isAbsolute then p.text else ((Path.parse directory).join p).text

end DecisionTrace
