import DecisionTrace.Files.Path
import DecisionTrace.Text.Quoted

/-!
# Files as a value

Programs read and write files in a tree that they get and give back. The tree is the working
directory, which is always there. What lies under a root is kept apart, below the name `/`, and what
lies above the working directory below as many names `..` as lead there; nothing else is known of it
at first.

A lookup follows the names one by one, as a file system does: every name but the last must lead to
a directory, `..` goes up, and an overlong name fails where it is met. The errors are those of the
usual system calls.
-/

namespace DecisionTrace

/-- A file, or a directory with what is in it. -/
inductive FileNode where
  | file (content : ByteArray)
  | directory (entries : List (String × FileNode))

namespace FileNode

/-- What is in a directory; a file holds nothing. -/
def entries : FileNode → List (String × FileNode)
  | .file _ => []
  | .directory entries => entries

/-- The node of a name. -/
def child? (node : FileNode) (name : String) : Option FileNode :=
  node.entries.lookup name

/-- The node at the end of a list of names. -/
def below? (node : FileNode) : List String → Option FileNode
  | [] => some node
  | name :: rest => (node.child? name).bind fun child => child.below? rest

/-- The entries with a node under a name, in the place of the one that had the name. -/
def setEntry (name : String) (node : FileNode) :
    List (String × FileNode) → List (String × FileNode)
  | [] => [(name, node)]
  | (other, old) :: rest =>
    if other = name then (name, node) :: rest else (other, old) :: setEntry name node rest

/-- The node with another at the end of a list of names; directories on the way that are not there
are made. -/
def put (node new : FileNode) : List String → FileNode
  | [] => new
  | name :: rest =>
    .directory (setEntry name (((node.child? name).getD (.directory [])).put new rest) node.entries)

mutual

/-- The files below a node, each under the names that lead to it. -/
def files : FileNode → List (List String × ByteArray)
  | .file content => [([], content)]
  | .directory entries => filesOf entries

/-- The files among and below entries. -/
def filesOf : List (String × FileNode) → List (List String × ByteArray)
  | [] => []
  | (name, node) :: rest => (files node).map (fun f => (name :: f.1, f.2)) ++ filesOf rest

end

end FileNode

/-- What goes wrong in a file system. -/
inductive FileFault where
  | noSuchFile
  | alreadyThere
  | notDirectory
  | isDirectory
  | nameTooLong
deriving DecidableEq, Repr

/-- The number of a fault. -/
def FileFault.number : FileFault → Nat
  | .noSuchFile => 2
  | .alreadyThere => 17
  | .notDirectory => 20
  | .isDirectory => 21
  | .nameTooLong => 36

/-- The words of a fault. -/
def FileFault.words : FileFault → String
  | .noSuchFile => "No such file or directory"
  | .alreadyThere => "File exists"
  | .notDirectory => "Not a directory"
  | .isDirectory => "Is a directory"
  | .nameTooLong => "File name too long"

/-- Why a file cannot be used. -/
inductive FileError where
  /-- The file system refuses the path. -/
  | system (fault : FileFault) (path : String)
  /-- The path holds a character that no path can hold. -/
  | nullByte
  /-- The content is not text. -/
  | notText
  /-- Too many directories that are missing lie one inside the other. -/
  | nestedTooDeep
deriving DecidableEq, Repr

/-- The message of a file error; content that is not text has none. -/
def FileError.message : FileError → String
  | .system fault path =>
    "[Errno " ++ toString fault.number ++ "] " ++ fault.words ++ ": " ++ Text.quoted path
  | .nullByte => "embedded null byte"
  | .notText => ""
  | .nestedTooDeep => "maximum recursion depth exceeded while calling a Python object"

/-- The working directory with all that is below it. -/
structure FileTree where
  top : FileNode := .directory []

/-- Where a path leads. -/
inductive FileTarget where
  /-- To a node. -/
  | present (location : List String) (node : FileNode)
  /-- To a free name in a directory. -/
  | free (location : List String)

namespace FileTree

/-- The name under which everything below a root is kept. -/
def rootName : String := "/"

/-- The name that leads to the directory above. -/
def upName : String := ".."

/-- Whether a location is that of the working directory or of a directory above it. -/
def isOutward (location : List String) : Bool :=
  location.all (· = upName)

/-- The node at a location; the working directory, those above it and the root are always there. -/
def node? (t : FileTree) (location : List String) : Option FileNode :=
  let node := t.top.below? location
  if isOutward location ∨ location = [rootName] then some (node.getD (.directory [])) else node

/-- The tree with a node put at a location. -/
def put (t : FileTree) (location : List String) (node : FileNode) : FileTree :=
  ⟨t.top.put node location⟩

/-- The tree with a node put at a location, where a directory that is there already is kept. -/
def withNode (t : FileTree) (location : List String) (node : FileNode) : FileTree :=
  match node, t.node? location with
  | .directory _, some (.directory _) => t
  | _, _ => t.put location node

/-- The way to the directory above the one that a way leads to, both with the last name first. A
root is above itself. -/
def above (way : List String) : List String :=
  if way = [rootName] then way else if isOutward way then upName :: way else way.tail

/-- The largest number of bytes in a name. -/
def maxNameBytes : Nat := 255

/-- The largest number of bytes in the text of a path. -/
def maxPathBytes : Nat := 4095

/-- Where the remaining parts of a path lead, from the end of a way, which has its last name first,
and from what is there. -/
def follow (t : FileTree) (way : List String) (here : Option FileNode) :
    List String → Except FileFault FileTarget
  | [] =>
    match here with
    | some node => .ok (.present way.reverse node)
    | none => .ok (.free way.reverse)
  | part :: rest =>
    match here with
    | some (.directory entries) =>
      if part = "" ∨ part = "." then follow t way here rest
      else if part = upName then follow t (above way) (t.node? (above way).reverse) rest
      else if maxNameBytes < part.utf8ByteSize then .error .nameTooLong
      else follow t (part :: way) (entries.lookup part) rest
    | some (.file _) => .error .notDirectory
    | none => .error .noSuchFile

/-- Where the text of a path leads. -/
def target (t : FileTree) (path : String) : Except FileError FileTarget :=
  if path.contains '\x00' then .error .nullByte
  else if maxPathBytes < path.utf8ByteSize then .error (.system .nameTooLong path)
  else if path = "" then .error (.system .noSuchFile path)
  else
    let start := if Path.rootOf path.toList = .workingDirectory then [] else [rootName]
    match t.follow start (t.node? start) (Path.parts path) with
    | .ok found => .ok found
    | .error fault => .error (.system fault path)

/-- The bytes of a file. -/
def readBytes (t : FileTree) (path : String) : Except FileError ByteArray :=
  match t.target path with
  | .error e => .error e
  | .ok (.present _ (.file content)) => .ok content
  | .ok (.present _ (.directory _)) => .error (.system .isDirectory path)
  | .ok (.free _) => .error (.system .noSuchFile path)

/-- The text of a file. -/
def readText (t : FileTree) (path : String) : Except FileError String :=
  match t.readBytes path with
  | .error e => .error e
  | .ok content =>
    match String.fromUTF8? content with
    | some text => .ok text
    | none => .error .notText

/-- Whether something is there; a path that cannot be followed leads nowhere, except that an
overlong one is an error. -/
def hasNode (t : FileTree) (path : String) : Except FileError Bool :=
  match t.target path with
  | .ok (.present _ _) => .ok true
  | .ok (.free _) => .ok false
  | .error (.system .nameTooLong path) => .error (.system .nameTooLong path)
  | .error _ => .ok false

/-- The tree with a text written to a file. -/
def writeText (t : FileTree) (path : String) (text : String) : Except FileError FileTree :=
  match t.target path with
  | .error e => .error e
  | .ok (.present _ (.directory _)) => .error (.system .isDirectory path)
  | .ok (.present location (.file _)) => .ok (t.put location (.file text.toUTF8))
  | .ok (.free location) => .ok (t.put location (.file text.toUTF8))

/-- The tree with a new directory. -/
def makeDirectory (t : FileTree) (path : String) : Except FileError FileTree :=
  match t.target path with
  | .error e => .error e
  | .ok (.present _ _) => .error (.system .alreadyThere path)
  | .ok (.free location) => .ok (t.put location (.directory []))

/-- Whether a path leads to a directory. -/
def isDirectory (t : FileTree) (path : String) : Bool :=
  match t.target path with
  | .ok (.present _ (.directory _)) => true
  | _ => false

/-- The tree with a directory, which may be there already. -/
def ensureDirectory (t : FileTree) (p : Path) : Except FileError FileTree :=
  match t.makeDirectory p.text with
  | .ok t => .ok t
  | .error e => if t.isDirectory p.text then .ok t else .error e

/-- The tree with a directory and the directories above it; only a missing directory is made, and of
those that lie one inside the other no more than a given number. -/
def ensureDirectories (t : FileTree) (p : Path) : (levels : Nat) → Except FileError FileTree
  | 0 => .error .nestedTooDeep
  | levels + 1 =>
    match t.ensureDirectory p with
    | .ok t => .ok t
    | .error e =>
      match e with
      | .system .noSuchFile _ =>
        if p.names = [] then .error e
        else
          match t.ensureDirectories p.parent levels with
          | .error e => .error e
          | .ok t => t.ensureDirectory p
      | _ => .error e

/-- The files below the working directory with their bytes. -/
def files (t : FileTree) : List (List String × ByteArray) :=
  t.top.files.filter fun f => f.1.head? ≠ some rootName ∧ f.1.head? ≠ some upName

end FileTree

end DecisionTrace
