import DecisionTrace.Files.Tree
import DecisionTrace.Json.Printer
import DecisionTrace.Log
import DecisionTrace.Position
import DecisionTrace.Random.Draw

/-!
# Datasets

A dataset is a list of examples in random order, cut into a part for testing and a part for
training. The cut is a position, so a negative size counts from the back and an oversized one takes
all. Each part goes to a JSON file of its own in one directory, which is made if it is missing.

Directories above each other are made, and values inside each other written, by calls inside each
other. A program bounds how many of them may be open, so how many are left depends on who asks for
the dataset (`CallRoom`).
-/

namespace DecisionTrace

/-- Where a dataset goes, and how much of it is for testing. -/
structure DatasetTarget where
  directory : String
  testSize : Int := 256
  /-- The text in front of both file names. -/
  lead : String := ""
deriving DecidableEq, Repr

/-- How many calls may still be made inside each other for a dataset. -/
structure CallRoom where
  /-- One for each directory above another that is missing. -/
  directories : Nat
  /-- One for each level of nesting of a value. -/
  values : Nat
deriving DecidableEq, Repr

/-- Why a dataset is not written. -/
inductive DatasetError where
  | file (e : FileError)
  | data (e : JsonQueryError)
  | draw (e : DrawError)
  /-- An example has no text. -/
  | json (e : JsonWriteError)
deriving DecidableEq, Repr

/-- The message of a dataset that is not written. -/
def DatasetError.message : DatasetError → String
  | .file e => e.message
  | .data e => e.message
  | .draw e => e.message
  | .json e => e.message

/-- Examples cut into two parts. -/
structure DatasetSplit (α : Type) where
  test : List α
  train : List α
deriving DecidableEq, Repr

namespace Dataset

/-- The names of the two files behind their common lead, training first. -/
def fileNames (lead : String) : List String :=
  [lead ++ "train.json", lead ++ "test.json"]

/-- The cut of a list: the part for testing comes first. -/
def split {α : Type} (examples : List α) (testSize : Int) : DatasetSplit α :=
  let k := Position.cut examples.length testSize
  ⟨examples.take k, examples.drop k⟩

/-- The examples in random order, cut into two parts. -/
def shuffledSplit {σ : Type} [WordStream σ] {α : Type} (attempts : Nat) (examples : List α)
    (testSize : Int) (stream : σ) : Except DrawError (DatasetSplit α) :=
  match (Draw.runOn stream (Draw.shuffle attempts examples)).1 with
  | .ok shuffled => .ok (split shuffled testSize)
  | .error e => .error e

/-- The tree with the text of a value written to a file. The file is opened first, so a path that
cannot be used counts before a value that has no text. -/
def writeJson (room : Nat) (tree : FileTree) (path : String) (value : Json) :
    Except DatasetError FileTree :=
  match tree.writeText path value.render with
  | .error e => .error (.file e)
  | .ok tree =>
    match value.writeFault? room with
    | some e => .error (.json e)
    | none => .ok tree

/-- The tree with both parts written below a directory. -/
def write (room : Nat) (tree : FileTree) (directory : Path) (lead : String)
    (parts : DatasetSplit Json) : Except DatasetError FileTree :=
  let file (name : String) := (directory.join (Path.parse (lead ++ name))).text
  match writeJson room tree (file "train.json") (.array parts.train) with
  | .error e => .error e
  | .ok tree => writeJson room tree (file "test.json") (.array parts.test)

/-- What is said about a written dataset. -/
def log {α : Type} (directory : Path) (parts : DatasetSplit α) : List LogRecord :=
  ["Saved datasets to " ++ directory.text,
   "  Train: " ++ Text.natural parts.train.length ++ " examples",
   "  Test: " ++ Text.natural parts.test.length ++ " examples"].map
    fun text => ⟨.collection, .info, text⟩

/-- The tree with a dataset written to it; the examples are a field of the data. The directory is
made first, so it stays also when the data have no examples. -/
def create {σ : Type} [WordStream σ] (room : CallRoom) (attempts : Nat) (tree : FileTree)
    (data : Json) (target : DatasetTarget) (stream : σ) :
    Except DatasetError (FileTree × List LogRecord) :=
  let directory := Path.parse target.directory
  match tree.ensureDirectories directory room.directories with
  | .error e => .error (.file e)
  | .ok tree =>
    match (data.field "examples").bind Json.items with
    | .error e => .error (.data e)
    | .ok examples =>
      match shuffledSplit attempts examples target.testSize stream with
      | .error e => .error (.draw e)
      | .ok parts =>
        match write room.values tree directory target.lead parts with
        | .error e => .error e
        | .ok tree => .ok (tree, log directory parts)

end Dataset

end DecisionTrace
