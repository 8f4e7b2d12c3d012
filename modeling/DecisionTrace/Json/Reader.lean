import DecisionTrace.Json.Value

/-!
# Reading JSON

The reader goes through the text once, character by character, and keeps where it stands: which
lists and objects are open, what may come next, and how far it is inside a string or a plain word.
It needs no look-ahead, because a plain word ends at the first character that cannot belong to it
and that character is then looked at again from between the tokens.

The first error counts, so a word is not looked into where no value may stand, and a number that
cannot be is refused before what follows it in the word. How many lists and objects may be open at a
time is a parameter: a program bounds the calls that are open inside each other, and reading makes
one for each of them.

The grammar is that of JSON, with the words `NaN`, `Infinity` and `-Infinity` besides. Of two
fields of an object with one name the first gives the place and the last the value. A surrogate
that has no partner is replaced.
-/

namespace DecisionTrace

/-- Why a text is no JSON. -/
inductive JsonError where
  | syntaxError
  /-- An integer has too many digits. -/
  | tooManyDigits (count : Nat)
  /-- One list or object too many is open at a time; the last is of this kind. -/
  | nestedTooDeep (kind : String)
deriving DecidableEq, Repr

/-- The message of a text that is no JSON; a wrong syntax has none. -/
def JsonError.message : JsonError → String
  | .syntaxError => ""
  | .tooManyDigits count => Text.tooManyDigitsMessage count
  | .nestedTooDeep kind =>
    "maximum recursion depth exceeded while decoding a JSON " ++ kind ++ " from a unicode string"

namespace Json

/-- An open list or object with what has been read of it, last first. -/
inductive Frame where
  | array (items : List Json)
  /-- An object whose next value belongs to a name, once the name has been read. -/
  | object (fields : List (String × Json)) (key : Option String)

/-- What may come next. -/
inductive Expectation where
  | value
  /-- A value, or the end of the list that has just been opened. -/
  | valueOrEnd
  | key
  /-- A name, or the end of the object that has just been opened. -/
  | keyOrEnd
  | colon
  | commaOrEnd
  /-- Nothing but blanks: the value is complete. -/
  | nothing (result : Json)

/-- Where the reader stands between tokens. -/
structure Place where
  frames : List Frame
  expectation : Expectation

/-- Where the reader stands between characters. -/
inductive ReaderState where
  | between (p : Place)
  /-- Inside a number or a word; its characters, last first. -/
  | plain (p : Place) (word : List Char)
  /-- Inside a string; its code points, last first. -/
  | string (p : Place) (points : List Nat)
  /-- Behind the backslash of a string. -/
  | escape (p : Place) (points : List Nat)
  /-- Inside an escape by code point, with the digits still to come and their value so far. -/
  | code (p : Place) (points : List Nat) (left value : Nat)

/-- The fields with one more at the end; an earlier field of that name takes the value instead. -/
def insertField (key : String) (value : Json) (fields : List (String × Json)) :
    List (String × Json) :=
  if fields.any fun field => field.1 = key then
    fields.map fun field => if field.1 = key then (key, value) else field
  else (key, value) :: fields

namespace Place

/-- Whether a value may come next. -/
def takesValue (p : Place) : Bool :=
  match p.expectation with
  | .value | .valueOrEnd => true
  | _ => false

/-- The position after a complete value. -/
def complete (frames : List Frame) (value : Json) : Except JsonError Place :=
  match frames with
  | [] => .ok ⟨[], .nothing value⟩
  | .array items :: rest => .ok ⟨.array (value :: items) :: rest, .commaOrEnd⟩
  | .object fields (some key) :: rest =>
    .ok ⟨.object (insertField key value fields) none :: rest, .commaOrEnd⟩
  | .object _ none :: _ => .error .syntaxError

/-- The position after a value that opens nothing. -/
def scalar (p : Place) (value : Json) : Except JsonError Place :=
  if p.takesValue then complete p.frames value else .error .syntaxError

/-- The position after the start of a list. -/
def openArray (maxOpen : Nat) (frames : List Frame) : Except JsonError Place :=
  if frames.length < maxOpen then .ok ⟨.array [] :: frames, .valueOrEnd⟩
  else .error (.nestedTooDeep "array")

/-- The position after the start of an object. -/
def openObject (maxOpen : Nat) (frames : List Frame) : Except JsonError Place :=
  if frames.length < maxOpen then .ok ⟨.object [] none :: frames, .keyOrEnd⟩
  else .error (.nestedTooDeep "object")

/-- The position after a string, which may be a name. -/
def text (p : Place) (s : String) : Except JsonError Place :=
  match p.expectation, p.frames with
  | .key, .object fields _ :: rest => .ok ⟨.object fields (some s) :: rest, .colon⟩
  | .keyOrEnd, .object fields _ :: rest => .ok ⟨.object fields (some s) :: rest, .colon⟩
  | _, _ => p.scalar (.string s)

/-- The position after a bracket, brace, comma or colon. -/
def punctuation (maxOpen : Nat) (p : Place) (c : Char) : Except JsonError Place :=
  match c, p.expectation, p.frames with
  | '[', .value, frames => openArray maxOpen frames
  | '[', .valueOrEnd, frames => openArray maxOpen frames
  | '\x7b', .value, frames => openObject maxOpen frames
  | '\x7b', .valueOrEnd, frames => openObject maxOpen frames
  | ']', .valueOrEnd, .array items :: rest => complete rest (.array items.reverse)
  | ']', .commaOrEnd, .array items :: rest => complete rest (.array items.reverse)
  | '\x7d', .keyOrEnd, .object fields _ :: rest => complete rest (.object fields.reverse)
  | '\x7d', .commaOrEnd, .object fields _ :: rest => complete rest (.object fields.reverse)
  | ',', .commaOrEnd, .array items :: rest => .ok ⟨.array items :: rest, .value⟩
  | ',', .commaOrEnd, .object fields key :: rest => .ok ⟨.object fields key :: rest, .key⟩
  | ':', .colon, frames => .ok ⟨frames, .value⟩
  | _, _, _ => .error .syntaxError

end Place

/-- An ASCII digit. -/
def isAsciiDigit (c : Char) : Bool :=
  '0' ≤ c && c ≤ '9'

/-- A character of a number or a word. -/
def isPlain (c : Char) : Bool :=
  isAsciiDigit c || ('a' ≤ c && c ≤ 'z') || ('A' ≤ c && c ≤ 'Z') || c = '-' || c = '+' || c = '.'

/-- A blank between tokens. -/
def isSpacing (c : Char) : Bool :=
  c = ' ' || c = '\n' || c = '\r' || c = '\t'

/-- The number that ASCII digits denote. -/
def digitsValue (digits : List Char) : Nat :=
  digits.foldl (fun n d => 10 * n + (d.toNat - 48)) 0

/-- The digits of the fraction that a text starts with, and the text behind it; a point needs a
digit. -/
def fractionAt? : List Char → Option (List Char × List Char)
  | '.' :: rest =>
    let digits := rest.takeWhile isAsciiDigit
    if digits.isEmpty then none else some (digits, rest.dropWhile isAsciiDigit)
  | _ => none

/-- The exponent that a text starts with, and the text behind it; it needs a digit. -/
def exponentAt? : List Char → Option (Int × List Char)
  | [] => none
  | e :: rest =>
    if e ≠ 'e' ∧ e ≠ 'E' then none
    else
      let (negative, rest) := match rest with
        | '-' :: rest => (true, rest)
        | '+' :: rest => (false, rest)
        | rest => (false, rest)
      let digits := rest.takeWhile isAsciiDigit
      let n : Int := digitsValue digits
      if digits.isEmpty then none
      else some (if negative then -n else n, rest.dropWhile isAsciiDigit)

/-- The number of a word without its sign. It is an integer unless a fraction or an exponent stands
behind its first digits; the word must end with it. -/
def magnitude (negative : Bool) (word : List Char) : Except JsonError Json :=
  let whole := word.takeWhile isAsciiDigit
  let rest := word.dropWhile isAsciiDigit
  let fraction := fractionAt? rest
  let (fractionDigits, rest) := fraction.getD ([], rest)
  let exponent := exponentAt? rest
  let (power, rest) := exponent.getD (0, rest)
  let isInteger := fraction.isNone && exponent.isNone
  if whole.isEmpty || (whole.head? = some '0' && 1 < whole.length) then .error .syntaxError
  else if isInteger && Text.maxDigits < whole.length then .error (.tooManyDigits whole.length)
  else if !rest.isEmpty then .error .syntaxError
  else if isInteger then
    let n : Int := digitsValue whole
    .ok (.integer (if negative then -n else n))
  else
    .ok (.number (.decimal negative (digitsValue (whole ++ fractionDigits))
      (power - fractionDigits.length)))

/-- The value of a plain word. -/
def wordValue (word : String) : Except JsonError Json :=
  match word with
  | "null" => .ok .null
  | "true" => .ok (.bool true)
  | "false" => .ok (.bool false)
  | "NaN" => .ok (.number .notANumber)
  | "Infinity" => .ok (.number (.infinity false))
  | "-Infinity" => .ok (.number (.infinity true))
  | _ =>
    match word.toList with
    | '-' :: rest => magnitude true rest
    | rest => magnitude false rest

/-- The characters of a list of code points; a high and a low surrogate make one character, and
any other surrogate is replaced. -/
def characters : List Nat → List Char
  | high :: low :: rest =>
    if 0xD800 ≤ high ∧ high < 0xDC00 ∧ 0xDC00 ≤ low ∧ low < 0xE000 then
      Char.ofNat (0x10000 + (high - 0xD800) * 0x400 + (low - 0xDC00)) :: characters rest
    else (if 0xD800 ≤ high ∧ high < 0xE000 then '\uFFFD' else Char.ofNat high) ::
      characters (low :: rest)
  | [point] => [if 0xD800 ≤ point ∧ point < 0xE000 then '\uFFFD' else Char.ofNat point]
  | [] => []

/-- The value of a hexadecimal digit. -/
def hexValue? (c : Char) : Option Nat :=
  if isAsciiDigit c then some (c.toNat - 48)
  else if 'a' ≤ c ∧ c ≤ 'f' then some (c.toNat - 87)
  else if 'A' ≤ c ∧ c ≤ 'F' then some (c.toNat - 55)
  else none

/-- The code point that a letter behind a backslash stands for. -/
def escapeValue? (c : Char) : Option Nat :=
  if c = Text.doubleQuote ∨ c = Text.backslash ∨ c = '/' then some c.toNat
  else if c = 'b' then some 8
  else if c = 'f' then some 12
  else if c = 'n' then some 10
  else if c = 'r' then some 13
  else if c = 't' then some 9
  else none

namespace ReaderState

/-- One character between tokens. -/
def enter (maxOpen : Nat) (p : Place) (c : Char) : Except JsonError ReaderState :=
  if isSpacing c then .ok (.between p)
  else if c = Text.doubleQuote then .ok (.string p [])
  else if isPlain c then if p.takesValue then .ok (.plain p [c]) else .error .syntaxError
  else
    match p.punctuation maxOpen c with
    | .ok p => .ok (.between p)
    | .error e => .error e

/-- The end of a plain word. -/
def closeWord (p : Place) (word : List Char) : Except JsonError Place :=
  match wordValue (String.ofList word.reverse) with
  | .ok value => p.scalar value
  | .error e => .error e

/-- One character of the text. -/
def step (maxOpen : Nat) : ReaderState → Char → Except JsonError ReaderState
  | .between p, c => enter maxOpen p c
  | .plain p word, c =>
    if isPlain c then .ok (.plain p (c :: word))
    else
      match closeWord p word with
      | .ok p => enter maxOpen p c
      | .error e => .error e
  | .string p points, c =>
    if c = Text.doubleQuote then
      match p.text (String.ofList (characters points.reverse)) with
      | .ok p => .ok (.between p)
      | .error e => .error e
    else if c = Text.backslash then .ok (.escape p points)
    else if c.toNat < 0x20 then .error .syntaxError
    else .ok (.string p (c.toNat :: points))
  | .escape p points, c =>
    if c = 'u' then .ok (.code p points 4 0)
    else
      match escapeValue? c with
      | some point => .ok (.string p (point :: points))
      | none => .error .syntaxError
  | .code p points left value, c =>
    match hexValue? c with
    | some d =>
      if left ≤ 1 then .ok (.string p ((16 * value + d) :: points))
      else .ok (.code p points (left - 1) (16 * value + d))
    | none => .error .syntaxError

/-- The end of the text. -/
def finish : ReaderState → Except JsonError Json
  | .between ⟨_, .nothing value⟩ => .ok value
  | .plain p word =>
    match closeWord p word with
    | .ok ⟨_, .nothing value⟩ => .ok value
    | .ok _ => .error .syntaxError
    | .error e => .error e
  | _ => .error .syntaxError

end ReaderState

/-- The value that a text denotes, if no more than so many lists and objects are open at a time. -/
def read (maxOpen : Nat) (text : String) : Except JsonError Json :=
  match text.toList.foldlM (ReaderState.step maxOpen) (.between ⟨[], .value⟩) with
  | .ok state => state.finish
  | .error e => .error e

end Json

end DecisionTrace
