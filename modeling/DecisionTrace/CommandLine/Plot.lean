import DecisionTrace.CommandLine.Output
import DecisionTrace.Dataset.Split
import DecisionTrace.Json.Reader
import DecisionTrace.Lengths.Histogram

/-!
# The plotting program

The program reads the files of a dataset and describes the histogram of the trace lengths of each.
A file that is not there is skipped, and so is one without examples; a file that is there but cannot
be read, or does not hold a dataset, ends the program. How many lists and objects may be open at a
time in a file is a parameter, as it is of the reader.
-/

namespace DecisionTrace

/-- Where the plotting program reads and writes; a text is missing where its option was given
without one. -/
structure PlotRequest where
  dataDirectory : Option String := some "output"
  plotDirectory : Option String := some "trace_length_plots"
  lead : Option String := some ""
deriving DecidableEq, Repr

/-- Why the plotting program fails. -/
inductive PlotError where
  | file (e : FileError)
  | json (e : JsonError)
  | data (e : JsonQueryError)
  /-- A directory has no name. -/
  | namelessDirectory
  /-- The names of the files have no text to begin with. -/
  | missingLead
deriving DecidableEq, Repr

/-- The message of a failure. -/
def PlotError.message : PlotError → String
  | .file e => e.message
  | .json e => e.message
  | .data e => e.message
  | .namelessDirectory => "expected str, bytes or os.PathLike object, not list"
  | .missingLead => "can only concatenate list (not \"str\") to list"

namespace PlotRequest

/-- The command line of the program. -/
def grammar : Grammar where
  program := "plot_trace_lengths.py"
  usage := String.join
    ["usage: plot_trace_lengths.py [-h] [--data_dir DATA_DIR]\n",
     "                             [--output_dir OUTPUT_DIR] [--prefix PREFIX]\n"]
  details := String.join
    ["Plot trace length histograms\n",
     "\n",
     "options:\n",
     "  -h, --help            show this help message and exit\n",
     "  --data_dir DATA_DIR\n",
     "  --output_dir OUTPUT_DIR\n",
     "  --prefix PREFIX\n"]
  options :=
    [⟨["-h", "--help"], .help⟩, ⟨["--data_dir"], .value⟩, ⟨["--output_dir"], .value⟩,
     ⟨["--prefix"], .value⟩]
  takesOperands := false

/-- What a command line asks for. -/
def ofLine (line : ParsedLine) : PlotRequest where
  dataDirectory := (line.last? "--data_dir").getD (some "output")
  plotDirectory := (line.last? "--output_dir").getD (some "trace_length_plots")
  lead := (line.last? "--prefix").getD (some "")

/-- The trace lengths in a file. -/
def loadLengths (maxOpen : Nat) (tree : FileTree) (path : String) :
    Except PlotError TraceLengths :=
  match tree.readText path with
  | .error e => .error (.file e)
  | .ok text =>
    match Json.read maxOpen text with
    | .error e => .error (.json e)
    | .ok data =>
      match TraceLengths.ofJson data with
      | .error e => .error (.data e)
      | .ok lengths => .ok lengths

/-- What is printed about one file of the data, and its histogram if it has one. -/
def plotFile (maxOpen : Nat) (tree : FileTree) (data plots : Path) (name : String) :
    Except PlotError (String × List Histogram) :=
  let file := data.join (Path.parse name)
  match tree.hasNode file.text with
  | .error e => .error (.file e)
  | .ok false => .ok ("Skipping " ++ name ++ " (not found)\n", [])
  | .ok true =>
    match loadLengths maxOpen tree file.text with
    | .error e => .error e
    | .ok lengths =>
      let opening := "Processing " ++ name ++ "...\n"
      if lengths.all.isEmpty then .ok (opening ++ "  No examples found, skipping.\n", [])
      else
        let savedAs := (plots.join (Path.parse (file.stem ++ "_trace_lengths.png"))).text
        .ok (opening ++ "  Saved: " ++ savedAs ++ "\n", [.ofLengths lengths name savedAs])

/-- What is printed about several files, and their histograms. -/
def plotFiles (maxOpen : Nat) (tree : FileTree) (data plots : Path) :
    List String → Except PlotError (String × List Histogram)
  | [] => .ok ("", [])
  | name :: names =>
    match plotFile maxOpen tree data plots name with
    | .error e => .error e
    | .ok (text, histograms) =>
      match plotFiles maxOpen tree data plots names with
      | .error e => .error e
      | .ok (more, others) => .ok (text ++ more, histograms ++ others)

/-- The run of a request. Both directories need a name before anything is done. Then the directory
for the plots is made, and those above it must be there; the text in front of the file names is
looked at last. -/
def run (maxOpen : Nat) (tree : FileTree) (r : PlotRequest) :
    Except PlotError (ProgramOutput × List Histogram) :=
  match r.dataDirectory.map Path.parse, r.plotDirectory.map Path.parse with
  | some data, some plots =>
    match tree.ensureDirectory plots with
    | .error e => .error (.file e)
    | .ok tree =>
      match r.lead with
      | none => .error .missingLead
      | some lead =>
        match plotFiles maxOpen tree data plots (Dataset.fileNames lead) with
        | .error e => .error e
        | .ok (text, histograms) => .ok ({ stdout := text ++ "\nDone!\n" }, histograms)
  | _, _ => .error .namelessDirectory

/-- The program, from its command line to what it leaves behind, with the histograms. -/
def program (maxOpen : Nat) (tree : FileTree) (texts : List String) :
    Except PlotError (ProgramOutput × List Histogram) :=
  match grammar.parse texts with
  | .error stop => .ok (grammar.stopOutput stop, [])
  | .ok line => (ofLine line).run maxOpen tree

end PlotRequest

end DecisionTrace
