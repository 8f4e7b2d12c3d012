import DecisionTrace.Position
import DecisionTrace.Text.Decimal
import DecisionTrace.Text.Quoted

/-!
# Trace events

A search tells what it does as a list of events, each with the depth at which it happens. There
are four kinds of action: a propagated binding, a conflict, success, and a branch, which either
attempts the first value of a variable or backtracks to the second.

A trace that comes from elsewhere may hold entries of other kinds. Of such an entry only the name
of its kind and its depth are known, and it has no line of its own. Its events may have any depth,
also one whose white space no text can hold, and may number a clause with any integer, also one with
more digits than a text may have; such an event has no line either. How much white space fits into
the memory of a machine is left out.
-/

namespace DecisionTrace

/-- Which of the two subtrees of a variable a branch opens. -/
inductive BranchKind where
  | attempt
  | backtrack
deriving DecidableEq, Repr

/-- What a search does at one point. -/
inductive Action where
  /-- A clause leaves no choice for this variable. -/
  | propagate (name : String) (value : Bool)
  /-- The clause at this index has only false literals. -/
  | conflict (clause : Int)
  /-- Every clause has a true literal. -/
  | allSatisfied
  /-- A value is tried for this variable. -/
  | branch (kind : BranchKind) (name : String) (value : Bool)
deriving DecidableEq, Repr

/-- An action at a depth of the search. -/
structure Event where
  action : Action
  depth : Int
deriving DecidableEq, Repr

/-- An item of a trace from anywhere: an event, or something of a kind that is not known here. -/
inductive Entry where
  | event (e : Event)
  | foreign (kind : String) (depth : Int)
deriving DecidableEq, Repr

/-- The white space in front of a line at a depth; a negative depth has none. -/
def indentation (depth : Int) : String :=
  String.ofList (List.replicate (2 * depth.toNat) ' ')

/-- The word that opens the line of a branch. -/
def BranchKind.label : BranchKind → String
  | .attempt => "Branching"
  | .backtrack => "Backtrack"

/-- A binding in a trace line. -/
def bindingText (name : String) (value : Bool) : String :=
  name ++ " = " ++ Text.lowerBool value

/-- The line of an action, without indentation. -/
def Action.render : Action → String
  | .propagate name value => "Unit propagation: " ++ bindingText name value
  | .conflict clause => "Conflict detected in clause " ++ Text.integer clause
  | .allSatisfied => "All clauses satisfied"
  | .branch kind name value => kind.label ++ ": try " ++ bindingText name value

/-- The numbers that an action names. -/
def Action.numbers : Action → List Int
  | .conflict clause => [clause]
  | _ => []

/-- The line of an event, whatever its numbers. -/
def Event.render (e : Event) : String :=
  indentation e.depth ++ e.action.render

/-- The lines of a list of events. -/
def renderTrace (events : List Event) : String :=
  "\n".intercalate (events.map Event.render)

/-- Why an entry has no line. -/
inductive RenderError where
  /-- The kind is not known. -/
  | unknownKind (kind : String) (depth : Int)
  /-- The depth is no machine word. -/
  | noWord
  /-- The white space alone is longer than any text. -/
  | tooLong
  /-- A number has too many digits to be written. -/
  | tooManyDigits
deriving DecidableEq, Repr

/-- The message of an entry without a line. -/
def RenderError.message : RenderError → String
  | .unknownKind kind depth =>
    "Unknown trace event: " ++ kind ++ "(depth=" ++ Text.integer depth ++ ")"
  | .noWord => wordMessage
  | .tooLong => "repeated string is too long"
  | .tooManyDigits => Text.unwritableMessage

/-- What is wrong with a depth as a measure of white space: a text has fewer than `2 ^ 63`
characters, and two of them are for each level. -/
def depthError? (depth : Int) : Option RenderError :=
  if !fitsWord depth then some .noWord
  else if Nat.pow 2 62 ≤ depth then some .tooLong
  else none

namespace Entry

/-- The depth of an entry. -/
def depth : Entry → Int
  | .event e => e.depth
  | .foreign _ d => d

/-- The line of an entry. The white space is made first, so a depth that is too large counts before
a number that cannot be written and before a kind that is not known. -/
def render (e : Entry) : Except RenderError String :=
  match depthError? e.depth with
  | some failure => .error failure
  | none =>
    match e with
    | .event e =>
      if e.action.numbers.any Text.exceedsDigits then .error .tooManyDigits else .ok e.render
    | .foreign kind depth => .error (.unknownKind kind depth)

/-- The entry of a trace at a position. -/
def atPosition (trace : List Entry) (i : Int) : Except PositionError Entry :=
  Position.lookup "list" trace i

end Entry

/-- A trace described in a few words. -/
def describeTrace (trace : List Entry) : String :=
  "Trace(" ++ Text.natural trace.length ++ " events)"

end DecisionTrace
