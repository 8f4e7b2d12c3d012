import DecisionTrace.BinaryFraction
import DecisionTrace.Json.Value
import DecisionTrace.Lengths.Summation

/-!
# Trace lengths and their histogram

The lengths of the traces of a dataset, apart for formulas with and without a model, are shown as a
histogram with sixty bins of one width over all lengths, and summed up by a few numbers. What is
drawn is described here as a value; the drawing is left to others.
-/

namespace DecisionTrace

/-- The lengths of traces, apart by whether the formula has a model. -/
structure TraceLengths where
  satisfiable : List Nat := []
  unsatisfiable : List Nat := []
deriving DecidableEq, Repr

/-- One series of a histogram. -/
structure HistogramSeries where
  label : String
  values : List Nat
deriving DecidableEq, Repr

/-- What is drawn for one dataset. -/
structure Histogram where
  series : List HistogramSeries
  edges : List Float
  title : String
  summary : String
  savedAs : String

namespace TraceLengths

/-- All lengths, those of satisfiable formulas first. -/
def all (l : TraceLengths) : List Nat :=
  l.satisfiable ++ l.unsatisfiable

/-- The length of the trace of one example, with whether its formula has a model. -/
def ofExample (item : Json) : Except JsonQueryError (Bool × Nat) :=
  match item.field "satisfiable" with
  | .error e => .error e
  | .ok satisfiable =>
    match (item.field "events").bind Json.length with
    | .error e => .error e
    | .ok length => .ok (satisfiable.isTrue, length)

/-- The lengths of a list of examples. -/
def ofExamples : List Json → Except JsonQueryError TraceLengths
  | [] => .ok {}
  | item :: rest =>
    match ofExample item with
    | .error e => .error e
    | .ok (satisfiable, length) =>
      match ofExamples rest with
      | .error e => .error e
      | .ok l =>
        if satisfiable then .ok { l with satisfiable := length :: l.satisfiable }
        else .ok { l with unsatisfiable := length :: l.unsatisfiable }

/-- The lengths of a dataset. -/
def ofJson (data : Json) : Except JsonQueryError TraceLengths :=
  match data.items with
  | .error e => .error e
  | .ok examples => ofExamples examples

/-- The series that have a value. -/
def series (l : TraceLengths) : List HistogramSeries :=
  [⟨"SAT", l.satisfiable⟩, ⟨"UNSAT", l.unsatisfiable⟩].filter fun s => !s.values.isEmpty

end TraceLengths

namespace Histogram

/-- The smallest of some lengths. -/
def least (values : List Nat) : Nat :=
  values.min?.getD 0

/-- The largest of some lengths. -/
def greatest (values : List Nat) : Nat :=
  values.max?.getD 0

/-- The number of bins. -/
def binCount : Nat := 60

/-- The edges of the bins, from the smallest length to the largest; if these are equal the bins
reach half a unit to either side. -/
def binEdges (values : List Nat) : List Float :=
  let low := Float.ofNat (least values)
  let high := Float.ofNat (greatest values)
  let (first, last) := if low == high then (low - 0.5, high + 0.5) else (low, high)
  let step := (last - first) / Float.ofNat binCount
  ((List.range binCount).map fun i => Float.ofNat i * step + first) ++ [last]

/-- The arithmetic mean. -/
def mean (values : List Nat) : Float :=
  Float.ofNat (values.foldl (· + ·) 0) / Float.ofNat values.length

/-- The middle value, or the mean of the two in the middle. -/
def median (values : List Nat) : Float :=
  let sorted := values.mergeSort (fun a b => decide (a ≤ b))
  let k := sorted.length / 2
  if sorted.length % 2 = 1 then Float.ofNat (sorted.getD k 0)
  else Float.ofNat (sorted.getD (k - 1) 0 + sorted.getD k 0) / 2

/-- The standard deviation of the values themselves. -/
def deviation (values : List Nat) : Float :=
  let m := mean values
  let squares := values.toArray.map fun v => (Float.ofNat v - m) * (Float.ofNat v - m)
  Float.sqrt (Summation.total squares / Float.ofNat values.length)

/-- A double rounded to an integer. -/
def rounded (x : Float) : String :=
  match BinaryFraction.ofFloat? x with
  | some x => x.wholeText
  | none => "nan"

/-- The numbers that sum up some lengths, a line each. -/
def describe (values : List Nat) : String :=
  "\n".intercalate
    ["N = " ++ Text.grouped values.length,
     "Mean = " ++ rounded (mean values),
     "Median = " ++ rounded (median values),
     "Min = " ++ Text.grouped (least values),
     "Max = " ++ Text.grouped (greatest values),
     "Std = " ++ rounded (deviation values)]

/-- The histogram of the lengths of a dataset with a name. -/
def ofLengths (l : TraceLengths) (name savedAs : String) : Histogram where
  series := l.series
  edges := binEdges l.all
  title := "Trace Length Distribution: " ++ name
  summary := describe l.all
  savedAs := savedAs

/-- The binary code of a double in hexadecimal digits. -/
def edgeCode (x : Float) : String :=
  String.ofList (Text.hexDigits 16 x.toBits.toNat)

end Histogram

end DecisionTrace
