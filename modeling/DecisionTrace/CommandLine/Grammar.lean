import DecisionTrace.Text.Decimal
import DecisionTrace.Text.Quoted

/-!
# Command lines

A command line is a list of words. Each word before a double dash is an operand, an option, or
unknown; every word after it is an operand. An option may be shortened as long as only one option
starts that way, and an option with a value takes it after an equals sign or from the next operand.
A double dash after the equals sign gives the option, but no text for it.

Only the first unbroken run of operands counts. Operands after that, and words that look like
options but are none, are left over, and a command line with left-over words is refused. A call for
help ends the reading where it is met, whatever stands behind it.
-/

namespace DecisionTrace

/-- What an option does. -/
inductive OptionEffect where
  | help
  | flag
  | value
deriving DecidableEq, Repr

/-- An option with all its spellings. -/
structure OptionSpec where
  spellings : List String
  effect : OptionEffect
deriving DecidableEq, Repr

/-- All spellings, as errors show them. -/
def OptionSpec.label (o : OptionSpec) : String :=
  "/".intercalate o.spellings

/-- What a program understands. -/
structure Grammar where
  program : String
  usage : String
  /-- What is shown for help below the usage. -/
  details : String
  options : List OptionSpec
  takesOperands : Bool

/-- A word of a command line. -/
inductive Word where
  | operand (text : String)
  /-- The first double dash. -/
  | dashes
  /-- An option as spelled, with the text attached to it. -/
  | option (spec : OptionSpec) (spelling : String) (attached : Option String)
  | unknown (text : String)
deriving DecidableEq, Repr

/-- Why a command line is not carried out. -/
inductive CommandLineStop where
  | help
  | refused (reason : String)
deriving DecidableEq, Repr

/-- What a command line asks for. -/
structure ParsedLine where
  /-- The options in order, with the text of those that were given one. -/
  settings : List (OptionSpec × Option String) := []
  operands : List String := []
deriving DecidableEq, Repr

namespace Grammar

/-- The option with a spelling. -/
def find? (g : Grammar) (spelling : String) : Option OptionSpec :=
  g.options.find? fun o => o.spellings.contains spelling

/-- The spellings that start with a text, each with its option. -/
def completions (g : Grammar) (text : String) : List (OptionSpec × String) :=
  g.options.flatMap fun o => (o.spellings.filter fun s => s.startsWith text).map fun s => (o, s)

/-- The parts of a text around its first equals sign. -/
def splitAtEquals? (cs : List Char) : Option (String × String) :=
  match cs.dropWhile (· ≠ '=') with
  | [] => none
  | _ :: rest => some (String.ofList (cs.takeWhile (· ≠ '=')), String.ofList rest)

/-- Whether a text looks like a negative number: a minus sign before digits, with at most one point
that has a digit behind it. A line feed may follow. -/
def looksNegative (cs : List Char) : Bool :=
  let cs := if cs.getLast? = some '\n' then cs.dropLast else cs
  match cs with
  | '-' :: rest =>
    match rest.dropWhile Text.isDigit with
    | [] => !rest.isEmpty
    | '.' :: digits => !digits.isEmpty && digits.all Text.isDigit
    | _ => false
  | _ => false

/-- The word that an unknown text is: a negative number and a text with a space are operands. -/
def unlisted (text : String) (cs : List Char) : Word :=
  if looksNegative cs || cs.contains ' ' then .operand text else .unknown text

/-- The word of a text that starts with one dash and is no option by itself: a short option may
have its text attached without an equals sign. -/
def shortWord (g : Grammar) (text : String) (cs : List Char) : Word :=
  match g.find? (String.ofList (cs.take 2)) with
  | some o => .option o (String.ofList (cs.take 2)) (some (String.ofList (cs.drop 2)))
  | none => unlisted text cs

/-- The word of a text that starts with two dashes and is no option by itself; it may be the start
of one. -/
def longWord (g : Grammar) (text : String) (cs : List Char) : Except CommandLineStop Word :=
  let (start, attached) := match splitAtEquals? cs with
    | some (start, value) => (start, some value)
    | none => (text, none)
  match g.completions start with
  | [] => .ok (unlisted text cs)
  | [(o, spelling)] => .ok (.option o spelling attached)
  | several =>
    .error (.refused ("ambiguous option: " ++ text ++ " could match " ++
      ", ".intercalate (several.map Prod.snd)))

/-- The word that a text before the double dash is. -/
def word (g : Grammar) (text : String) : Except CommandLineStop Word :=
  let cs := text.toList
  match cs with
  | '-' :: second :: _ =>
    match g.find? text with
    | some o => .ok (.option o text none)
    | none =>
      match (splitAtEquals? cs).bind fun (spelling, value) =>
          (g.find? spelling).map fun o => Word.option o spelling (some value) with
      | some w => .ok w
      | none => if second = '-' then g.longWord text cs else .ok (g.shortWord text cs)
  | _ => .ok (.operand text)

/-- The words of a command line. -/
def words (g : Grammar) : List String → Except CommandLineStop (List Word)
  | [] => .ok []
  | text :: texts =>
    if text = "--" then .ok (.dashes :: texts.map .operand)
    else
      match g.word text with
      | .error e => .error e
      | .ok w =>
        match g.words texts with
        | .error e => .error e
        | .ok ws => .ok (w :: ws)

/-- Whether the run of operands that counts is still to come, has begun, or is over. -/
inductive Run where
  | toCome
  | begun
  | over
deriving DecidableEq, Repr

/-- What has been read of a command line. -/
structure Progress where
  line : ParsedLine := {}
  leftOver : List String := []
  run : Run
deriving DecidableEq, Repr

namespace Progress

/-- The run of operands ends, if it has begun, where something else stands. -/
def interrupted (p : Progress) : Progress :=
  { p with run := if p.run = .begun then .over else p.run }

/-- One more option. -/
def setting (p : Progress) (o : OptionSpec) (text : Option String) : Progress :=
  { p.interrupted with
    line := { p.line with settings := p.line.settings ++ [(o, text)] } }

/-- One more operand; behind the run it is left over. -/
def operand (p : Progress) (text : String) : Progress :=
  if p.run = .over then { p with leftOver := p.leftOver ++ [text] }
  else { p with run := .begun, line := { p.line with operands := p.line.operands ++ [text] } }

/-- The double dash; behind the run it is left over. -/
def dashes (p : Progress) : Progress :=
  if p.run = .over then { p with leftOver := p.leftOver ++ ["--"] } else { p with run := .begun }

/-- A word that looks like an option but is none. -/
def unknown (p : Progress) (text : String) : Progress :=
  { p.interrupted with leftOver := p.leftOver ++ [text] }

end Progress

/-- The refusal of an option as it is used. -/
def misuse (o : OptionSpec) (reason : String) : CommandLineStop :=
  .refused ("argument " ++ o.label ++ ": " ++ reason)

/-- The refusal of a text attached to an option that takes none. -/
def ignoredText (o : OptionSpec) (text : String) : CommandLineStop :=
  misuse o ("ignored explicit argument " ++ Text.quoted text)

/-- What comes of a text attached to an option without a value. A one-letter option may have
another one-letter option attached, which must then be a call for help, as no other is spelled so;
anything else is refused. -/
def attachedToFlag (g : Grammar) (o : OptionSpec) (spelling text : String) : CommandLineStop :=
  match spelling.toList, text.toList with
  | '-' :: second :: _, letter :: rest =>
    if second = '-' then ignoredText o text
    else
      match g.find? (String.ofList ['-', letter]) with
      | none => ignoredText o text
      | some _ =>
        match rest.dropWhile (· = letter) with
        | [] => .help
        | others => ignoredText o (String.ofList others)
  | _, _ => ignoredText o text

/-- The value that a text attached to an option gives; a double dash is dropped also there. -/
def attachedValue (text : String) : Option String :=
  if text = "--" then none else some text

/-- The reading of the words of a command line. -/
def readWords (g : Grammar) : List Word → Progress → Except CommandLineStop Progress
  | [], p => .ok p
  | .operand text :: ws, p => readWords g ws (p.operand text)
  | .dashes :: ws, p => readWords g ws p.dashes
  | .unknown text :: ws, p => readWords g ws (p.unknown text)
  | .option o spelling (some text) :: ws, p =>
    match o.effect with
    | .value => readWords g ws (p.setting o (attachedValue text))
    | _ => .error (g.attachedToFlag o spelling text)
  | .option o _ none :: ws, p =>
    match o.effect with
    | .help => .error .help
    | .flag => readWords g ws (p.setting o none)
    | .value =>
      match ws with
      | .operand text :: ws => readWords g ws (p.setting o (some text))
      -- neither the double dash nor another option can be a value
      | _ => .error (misuse o "expected one argument")

/-- What a command line asks for. -/
def parse (g : Grammar) (texts : List String) : Except CommandLineStop ParsedLine :=
  match g.words texts with
  | .error e => .error e
  | .ok ws =>
    match g.readWords ws { run := if g.takesOperands then .toCome else .over } with
    | .error e => .error e
    | .ok p =>
      if p.leftOver.isEmpty then .ok p.line
      else .error (.refused ("unrecognized arguments: " ++ " ".intercalate p.leftOver))

/-- What is shown for help. -/
def helpText (g : Grammar) : String :=
  g.usage ++ "\n" ++ g.details

/-- What is shown for a refused command line. -/
def refusalText (g : Grammar) (reason : String) : String :=
  g.usage ++ g.program ++ ": error: " ++ reason ++ "\n"

end Grammar

namespace ParsedLine

/-- Whether an option was given. -/
def has (line : ParsedLine) (spelling : String) : Bool :=
  line.settings.any fun s => s.1.spellings.contains spelling

/-- What an option was given last: none if it was not given at all, and otherwise its text, which
may be missing too. -/
def last? (line : ParsedLine) (spelling : String) : Option (Option String) :=
  (line.settings.reverse.find? fun s => s.1.spellings.contains spelling).map Prod.snd

end ParsedLine

end DecisionTrace
