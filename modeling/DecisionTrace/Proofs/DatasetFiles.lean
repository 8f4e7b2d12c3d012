import DecisionTrace.CommandLine.Plot
import DecisionTrace.Proofs.Draws
import DecisionTrace.Proofs.FileContents
import Mathlib.Data.List.Forall2

/-!
# What becomes of the examples of a dataset

Writing a dataset loses no example and writes none twice: the list in the file for testing followed
by the one in the file for training is a permutation of the examples, whatever the stream yields,
and the part for testing has the size that was asked for, as far as there are examples
(`Dataset.create_exports`). The lengths that the plotting program then finds in both files together
are those of the examples, apart for formulas with and without a model.

Examples that have no text end the export: an integer may have too many digits, and values may lie
inside each other more deeply than there is room for calls. Every part of a list can be written with
the whole list (`Dataset.writeFault?_array_of_subset`), so it depends on the examples alone and not
on their order or on the cut.

Reading a file back presupposes that its text denotes the list again. Not every value allows this,
since a decimal is written as the double next to it, so it is a condition on the two lists.
-/

open scoped List

namespace DecisionTrace

variable {σ α : Type} [WordStream σ]

namespace Dataset

/-! ## The cut -/

/-- Examples in some order, cut where a test size says: a negative size counts from the back and an
oversized one takes all. -/
structure Splits (examples : List α) (testSize : Int) (parts : DatasetSplit α) : Prop where
  perm : parts.test ++ parts.train ~ examples
  length_test : (parts.test.length : Int) =
    if 0 ≤ testSize then min testSize examples.length else max (examples.length + testSize) 0

theorem splits_split {shuffled examples : List α} (h : shuffled ~ examples) (testSize : Int) :
    Splits examples testSize (split shuffled testSize) where
  perm := by rwa [split, List.take_append_drop]
  length_test := by
    rw [split, List.length_take, h.length_eq, Position.cut]
    split <;> omega

/-- The only draw that can fail is one that is never accepted. -/
theorem splits_shuffledSplit (attempts : Nat) (examples : List α) (testSize : Int) (stream : σ) :
    match shuffledSplit attempts examples testSize stream with
    | .ok parts => Splits examples testSize parts
    | .error e => e = .exhausted := by
  have hshuffle := Draw.shuffle_ensures attempts examples stream
  rw [shuffledSplit, Draw.runOn]
  split at hshuffle
  · next shuffled hdrawn => rw [hdrawn]; exact splits_split hshuffle testSize
  · next e hdrawn => rw [hdrawn]; exact hshuffle

/-! ## Values without a text -/

variable {room : Nat} {tree written : FileTree} {path : String} {value : Json}
  {items part examples : List Json} {e : DatasetError}

theorem itemsFault?_eq_none_iff :
    Json.itemsFault? room items = none ↔ ∀ item ∈ items, item.writeFault? room = none := by
  induction items with
  | nil => simp [Json.itemsFault?]
  | cons item items ih => rw [Json.itemsFault?, Option.or_eq_none_iff, ih, List.forall_mem_cons]

/-- With a list every part of it can be written. -/
theorem writeFault?_array_of_subset (h : (Json.array items).writeFault? room = none)
    (hsub : part ⊆ items) : (Json.array part).writeFault? room = none := by
  cases room with
  | zero => cases h
  | succ room =>
      rw [Json.writeFault?, itemsFault?_eq_none_iff] at h ⊢
      exact fun item hitem => h item (hsub hitem)

/-- A value is written exactly if its file can be and it has a text. -/
theorem writeJson_eq_ok_iff : writeJson room tree path value = .ok written ↔
    tree.writeText path value.render = .ok written ∧ value.writeFault? room = none := by
  rw [writeJson]
  cases tree.writeText path value.render with
  | error fault => simp
  | ok tree => cases value.writeFault? room <;> simp

theorem exists_fault_of_writeJson (h : writeJson room tree path value = .error e) :
    (∃ fault, e = .file fault) ∨ (∃ fault, e = .json fault) ∧ value.writeFault? room ≠ none := by
  rw [writeJson] at h
  split at h
  · cases h
    exact .inl ⟨_, rfl⟩
  · split at h
    · next fault hfault =>
      cases h
      exact .inr ⟨⟨fault, rfl⟩, by simp [hfault]⟩
    · cases h

/-! ## The files -/

/-- The text of the path of a file of a dataset. -/
def filePath (target : DatasetTarget) (name : String) : String :=
  ((Path.parse target.directory).join (Path.parse (target.lead ++ name))).text

/-- Whether the two files of a dataset hold its parts. -/
structure Holds (tree : FileTree) (target : DatasetTarget) (parts : DatasetSplit Json) : Prop where
  test : tree.readText (filePath target "test.json") = .ok (Json.array parts.test).render
  train : tree.readText (filePath target "train.json") = .ok (Json.array parts.train).render

theorem isFileName_test : FileTree.IsFileName "test.json" := ⟨by decide, by decide⟩

theorem isFileName_train : FileTree.IsFileName "train.json" := ⟨by decide, by decide⟩

theorem holds_of_write {target : DatasetTarget} {parts : DatasetSplit Json}
    (h : write room tree (Path.parse target.directory) target.lead parts = .ok written) :
    Holds written target parts := by
  obtain ⟨pre, hpre⟩ :=
    FileTree.exists_text_join_parse (Path.parse target.directory) target.lead
  have htest := hpre _ isFileName_test
  have htrain := hpre _ isFileName_train
  simp only [write, htest, htrain] at h
  split at h
  · cases h
  · next between hbetween =>
      have hlast := (writeJson_eq_ok_iff.1 h).1
      have hfirst := (writeJson_eq_ok_iff.1 hbetween).1
      refine ⟨?_, ?_⟩
      · rw [filePath, htest]
        exact FileTree.readText_writeText hlast
      · rw [filePath, htrain]
        exact FileTree.readText_writeText_sibling isFileName_test isFileName_train (by decide)
          hlast (FileTree.readText_writeText hfirst)

/-- What keeps the parts of a dataset from being written is a fault of a file, or the examples have
no text. -/
theorem exists_fault_of_write {directory : Path} {lead : String} {parts : DatasetSplit Json}
    (hperm : parts.test ++ parts.train ~ examples)
    (h : write room tree directory lead parts = .error e) :
    (∃ fault, e = .file fault) ∨
      (∃ fault, e = .json fault) ∧ (Json.array examples).writeFault? room ≠ none := by
  have hpart : ∀ {tree path part}, part ⊆ examples →
      writeJson room tree path (.array part) = .error e → (∃ fault, e = .file fault) ∨
        (∃ fault, e = .json fault) ∧ (Json.array examples).writeFault? room ≠ none := by
    intro tree path part hsub hfails
    refine (exists_fault_of_writeJson hfails).imp_right (And.imp_right ?_)
    exact mt fun hexamples => writeFault?_array_of_subset hexamples hsub
  obtain ⟨htest, htrain⟩ := List.append_subset.1 hperm.subset
  simp only [write] at h
  split at h
  · next hfails =>
    obtain rfl := Except.error.inj h
    exact hpart htrain hfails
  · exact hpart htest h

/-! ## The lengths -/

/-- What an example tells of its trace: whether the formula has a model, and the number of
events. -/
def Tells (item : Json) (result : Bool × Nat) : Prop :=
  ∃ answer events, item.field "satisfiable" = .ok answer ∧ answer.isTrue = result.1 ∧
    item.field "events" = .ok (.array events) ∧ events.length = result.2

/-- Lengths put apart by whether the formula has a model. -/
def lengthsOf (results : List (Bool × Nat)) : TraceLengths where
  satisfiable := results.filterMap fun r => if r.1 then some r.2 else none
  unsatisfiable := results.filterMap fun r => if r.1 then none else some r.2

theorem ofExamples_of_tells {examples : List Json} {results : List (Bool × Nat)}
    (h : List.Forall₂ Tells examples results) :
    TraceLengths.ofExamples examples = .ok (lengthsOf results) := by
  induction h with
  | nil => rfl
  | @cons item result items results htells _ ih =>
      obtain ⟨answer, events, hanswer, hsat, hevents, hlength⟩ := htells
      obtain ⟨sat, length⟩ := result
      have hitem : TraceLengths.ofExample item = .ok (sat, length) := by
        rw [TraceLengths.ofExample, hanswer, hevents]
        simp only [Except.bind, Json.length, hsat, hlength]
      rw [TraceLengths.ofExamples, hitem]
      simp only [ih]
      cases sat with
      | true => rfl
      | false => rfl

theorem loadLengths_of_readText {maxOpen : Nat} {results : List (Bool × Nat)}
    (htext : tree.readText path = .ok (Json.array part).render)
    (hread : Json.read maxOpen (Json.array part).render = .ok (.array part))
    (hresults : List.Forall₂ Tells part results) :
    PlotRequest.loadLengths maxOpen tree path = .ok (lengthsOf results) := by
  rw [PlotRequest.loadLengths, htext]
  simp only [hread, TraceLengths.ofJson, Json.items, ofExamples_of_tells hresults]

/-- What the plotting program finds in the files of a dataset is what the examples tell. -/
structure Measures (maxOpen : Nat) (tree : FileTree) (target : DatasetTarget)
    (results : List (Bool × Nat)) (ofTest ofTrain : TraceLengths) : Prop where
  test : PlotRequest.loadLengths maxOpen tree (filePath target "test.json") = .ok ofTest
  train : PlotRequest.loadLengths maxOpen tree (filePath target "train.json") = .ok ofTrain
  satisfiable : ofTest.satisfiable ++ ofTrain.satisfiable ~ (lengthsOf results).satisfiable
  unsatisfiable : ofTest.unsatisfiable ++ ofTrain.unsatisfiable ~ (lengthsOf results).unsatisfiable

theorem exists_measures {maxOpen : Nat} {target : DatasetTarget} {parts : DatasetSplit Json}
    {results : List (Bool × Nat)} (hholds : Holds tree target parts)
    (hperm : parts.test ++ parts.train ~ examples)
    (hread : ∀ part ∈ [parts.test, parts.train],
      Json.read maxOpen (Json.array part).render = .ok (.array part))
    (hresults : List.Forall₂ Tells examples results) :
    ∃ ofTest ofTrain, Measures maxOpen tree target results ofTest ofTrain := by
  obtain ⟨shuffled, hshuffled, hback⟩ := List.perm_comp_forall₂ hperm hresults
  have htest := List.forall₂_take parts.test.length hshuffled
  have htrain := List.forall₂_drop parts.test.length hshuffled
  rw [List.take_left] at htest
  rw [List.drop_left] at htrain
  refine ⟨_, _, loadLengths_of_readText hholds.test (hread _ (by simp)) htest,
    loadLengths_of_readText hholds.train (hread _ (by simp)) htrain, ?_, ?_⟩
  · simp only [lengthsOf, ← List.filterMap_append, List.take_append_drop]
    exact hback.filterMap _
  · simp only [lengthsOf, ← List.filterMap_append, List.take_append_drop]
    exact hback.filterMap _

/-- A dataset is written with all its examples, each as often as it is there, and the part for
testing has the size that was asked for. If the two lists can be read back, the lengths in both
files together are those of the examples. Only the file system, examples without a text and a draw
that is never accepted stand in the way. -/
theorem create_exports (room : CallRoom) (attempts : Nat) (tree : FileTree) (data : Json)
    (target : DatasetTarget) (stream : σ) {examples : List Json}
    (hdata : data.field "examples" = .ok (.array examples)) :
    match create room attempts tree data target stream with
    | .ok (written, _) => ∃ parts, Holds written target parts ∧
        Splits examples target.testSize parts ∧
        ∀ maxOpen, (∀ part ∈ [parts.test, parts.train],
            Json.read maxOpen (Json.array part).render = .ok (.array part)) →
          ∀ results, List.Forall₂ Tells examples results →
            ∃ ofTest ofTrain, Measures maxOpen written target results ofTest ofTrain
    | .error e => e = .draw .exhausted ∨ (∃ fault, e = .file fault) ∨
        (∃ fault, e = .json fault) ∧ (Json.array examples).writeFault? room.values ≠ none := by
  have hsplits := splits_shuffledSplit attempts examples target.testSize stream
  rw [create, hdata]
  simp only [Except.bind, Json.items]
  cases tree.ensureDirectories (Path.parse target.directory) room.directories with
  | error fault => exact .inr (.inl ⟨fault, rfl⟩)
  | ok tree =>
      cases hdrawn : shuffledSplit attempts examples target.testSize stream with
      | error e =>
          rw [hdrawn] at hsplits
          exact .inl (congrArg _ hsplits)
      | ok parts =>
          rw [hdrawn] at hsplits
          simp only
          cases hwrite : write room.values tree (Path.parse target.directory) target.lead parts with
          | error e => exact .inr (exists_fault_of_write hsplits.perm hwrite)
          | ok written =>
              have hholds := holds_of_write hwrite
              exact ⟨parts, hholds, hsplits, fun maxOpen hread results hresults =>
                exists_measures hholds hsplits.perm hread hresults⟩

/-- One example with a model and one without. -/
def pair : List Json :=
  [.object [("satisfiable", .bool true), ("events", .array [.null])],
   .object [("satisfiable", .bool false), ("events", .array [.null, .null])]]

/-- The data of a pair of examples, all but one of which are for testing. -/
def pairData : Json := .object [("examples", .array pair)]

def pairTarget : DatasetTarget := { directory := ".", testSize := -1 }

/-- Room for a pair of examples in a directory that is there. -/
def pairRoom : CallRoom := { directories := 1, values := 4 }

theorem isOk_create_pair :
    (create pairRoom 8 {} pairData pairTarget (⟨0⟩ : Strides)).isOk = true := by
  simp only [create, write, writeJson, pairTarget, pairRoom, FileTree.ensureDirectories,
    FileTree.ensureDirectory, FileTree.makeDirectory, FileTree.isDirectory, FileTree.writeText,
    FileTree.target, String.contains_char_eq]
  decide +kernel

theorem create_exports_pair :
    pairData.field "examples" = .ok (.array pair) ∧
      ∃ written said,
        create pairRoom 8 {} pairData pairTarget (⟨0⟩ : Strides) = .ok (written, said) ∧
        ∃ parts, Holds written pairTarget parts ∧ Splits pair (-1) parts ∧
          ∃ ofTest ofTrain,
            Measures 4 written pairTarget [(true, 1), (false, 2)] ofTest ofTrain := by
  refine ⟨rfl, ?_⟩
  have hexports := create_exports pairRoom 8 {} pairData pairTarget (⟨0⟩ : Strides) rfl
  have hok := isOk_create_pair
  cases hcreate : create pairRoom 8 {} pairData pairTarget (⟨0⟩ : Strides) with
  | error e => rw [hcreate] at hok; cases hok
  | ok result =>
      obtain ⟨written, said⟩ := result
      rw [hcreate] at hexports
      obtain ⟨parts, hholds, hsplits, hmeasures⟩ := hexports
      refine ⟨written, said, rfl, parts, hholds, hsplits, hmeasures 4 ?_ _ ?_⟩
      · -- each part is one of the two examples
        have htest : parts.test.length = 1 := by
          have hlength := hsplits.length_test
          simp [pairTarget, pair] at hlength
          omega
        have htrain : parts.train.length = 1 := by
          have hboth : (parts.test ++ parts.train).length = 2 := hsplits.perm.length_eq
          rw [List.length_append] at hboth
          omega
        obtain ⟨x, hx⟩ := List.length_eq_one_iff.1 htest
        obtain ⟨y, hy⟩ := List.length_eq_one_iff.1 htrain
        have hread : ∀ item ∈ pair,
            Json.read 4 (Json.array [item]).render = .ok (.array [item]) := by
          simp only [pair, List.forall_mem_cons]
          exact ⟨rfl, rfl, List.forall_mem_nil _⟩
        have hmem : ∀ item ∈ [x, y], item ∈ pair := by
          intro item hitem
          rw [← hsplits.perm.mem_iff, hx, hy]
          exact hitem
        simp only [hx, hy, List.forall_mem_cons] at hmem ⊢
        exact ⟨hread x hmem.1, hread y hmem.2.1, List.forall_mem_nil _⟩
      · exact .cons ⟨_, _, rfl, rfl, rfl, rfl⟩ (.cons ⟨_, _, rfl, rfl, rfl, rfl⟩ .nil)

end Dataset

end DecisionTrace
