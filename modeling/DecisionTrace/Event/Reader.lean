import DecisionTrace.Clause.Reader
import DecisionTrace.Event

/-!
# Reading trace lines

The reader turns a line back into the event that it shows. Two spaces of indentation make one
level of depth. A name is everything between the fixed words in front and the last ` = true` or
` = false`, so it may itself contain such text, but no line feed. A clause index is a run of
decimal digits of any script, up to a fixed number of digits.
-/

namespace DecisionTrace

/-- Why a line shows no event. -/
inductive LineFault where
  /-- The indentation is no multiple of two. -/
  | oddIndentation (spaces : Nat)
  /-- The words are those of no event. -/
  | unrecognized
  /-- A cause in the words of a caller; it may be empty. -/
  | stated (reason : String)
deriving DecidableEq, Repr

/-- The cause in words. -/
def LineFault.reason : LineFault → String
  | .oddIndentation spaces =>
    "indentation of " ++ Text.natural spaces ++ " spaces is not a whole depth"
  | .unrecognized => "unrecognized event"
  | .stated reason => reason

/-- A line that cannot be turned into an event. -/
inductive LineError where
  /-- The line shows no event. -/
  | malformed (line : String) (fault : LineFault)
  /-- The clause index has too many digits. -/
  | tooManyDigits (count : Nat)
deriving DecidableEq, Repr

/-- The message of a line that cannot be turned into an event. -/
def LineError.message : LineError → String
  | .malformed line fault =>
    "Malformed trace line: " ++ Text.quoted line ++ ClauseError.reasonLine fault.reason
  | .tooManyDigits count => Text.tooManyDigitsMessage count

/-- The name and value of a text such as `A = true`. -/
def readBinding? (cs : List Char) : Option (String × Bool) := do
  let (name, value) ←
    match Text.before? " = true".toList cs with
    | some name => some (name, true)
    | none => (Text.before? " = false".toList cs).map fun name => (name, false)
  if name.isEmpty || name.contains '\n' then none else some (String.ofList name, value)

/-- What a line without indentation shows. -/
inductive LineBody where
  | action (a : Action)
  | tooManyDigits (count : Nat)
  | unrecognized
deriving DecidableEq, Repr

/-- A line that starts with `lead` and goes on with a binding. -/
def readBindingAfter? (lead : String) (cs : List Char) : Option (String × Bool) :=
  (Text.after? lead.toList cs).bind readBinding?

/-- The numeral of a conflict line. -/
def readConflict? (cs : List Char) : Option (List Char) :=
  match Text.after? "Conflict detected in clause ".toList cs with
  | some digits => if !digits.isEmpty && digits.all Text.isDigit then some digits else none
  | none => none

/-- What a line without indentation shows; the kinds of line exclude each other by their first
words. -/
def LineBody.read (cs : List Char) : LineBody :=
  match readBindingAfter? "Unit propagation: " cs with
  | some (name, value) => .action (.propagate name value)
  | none =>
  match readBindingAfter? "Branching: try " cs with
  | some (name, value) => .action (.branch .attempt name value)
  | none =>
  match readBindingAfter? "Backtrack: try " cs with
  | some (name, value) => .action (.branch .backtrack name value)
  | none =>
  match readConflict? cs with
  | some digits =>
    if Text.maxDigits < digits.length then .tooManyDigits digits.length
    else
      match Text.readNatural? digits with
      | some clause => .action (.conflict clause)
      | none => .unrecognized
  | none => if cs = "All clauses satisfied".toList then .action .allSatisfied else .unrecognized

namespace Event

/-- The text without line feeds at its end. -/
def dropLineFeeds (cs : List Char) : List Char :=
  (cs.reverse.dropWhile (· = '\n')).reverse

/-- The event that a line shows; line feeds at its end do not count. -/
def read (text : String) : Except LineError Event :=
  let line := dropLineFeeds text.toList
  let body := line.dropWhile (· = ' ')
  let spaces := line.length - body.length
  if spaces % 2 ≠ 0 then .error (.malformed (String.ofList line) (.oddIndentation spaces))
  else
    match LineBody.read body with
    | .action a => .ok ⟨a, (spaces / 2 : Nat)⟩
    | .tooManyDigits count => .error (.tooManyDigits count)
    | .unrecognized => .error (.malformed (String.ofList line) .unrecognized)

end Event

/-- The events of a list of lines; blank lines show none, and the first line that cannot be read
decides the error. -/
def readTrace : List String → Except LineError (List Event)
  | [] => .ok []
  | line :: lines =>
    if (Text.trim line.toList).isEmpty then readTrace lines
    else
      match Event.read line with
      | .error e => .error e
      | .ok e =>
        match readTrace lines with
        | .error e => .error e
        | .ok es => .ok (e :: es)

end DecisionTrace
