import DecisionTrace.Json.Value

/-!
# Writing JSON

Values are written with two spaces for each level of nesting, one item or field to a line, and
nothing between the brackets of what is empty. Strings keep every character as it is, except the
double quote, the backslash and the control characters below the space.

Not every value has a text. An integer may have too many digits; and whoever writes a value goes
into it by one call for each level of nesting, while a program may have only so many calls open
inside each other. The room that is left for them is a parameter (`writeFault?`).
-/

namespace DecisionTrace

/-- Why a value has no text. -/
inductive JsonWriteError where
  /-- An integer has too many digits. -/
  | tooManyDigits
  /-- There is no room for the calls that lead to a value. -/
  | nestedTooDeep
deriving DecidableEq, Repr

/-- The message of a value that has no text. -/
def JsonWriteError.message : JsonWriteError → String
  | .tooManyDigits => Text.unwritableMessage
  | .nestedTooDeep => "maximum recursion depth exceeded while calling a Python object"

/-- What keeps a number from being written with room for so many calls. -/
def JsonNumber.writeFault? (room : Nat) : JsonNumber → Option JsonWriteError
  | .integer n => if Text.exceedsDigits n then some .tooManyDigits else none
  -- a double is written by a call of its own
  | _ => if room = 0 then some .nestedTooDeep else none

namespace Json

/-- The written form of one character of a string. -/
def escapedChar (c : Char) : List Char :=
  if c = Text.doubleQuote ∨ c = Text.backslash then [Text.backslash, c]
  else if c = '\n' then [Text.backslash, 'n']
  else if c = '\r' then [Text.backslash, 'r']
  else if c = '\t' then [Text.backslash, 't']
  else if c = '\x08' then [Text.backslash, 'b']
  else if c = '\x0c' then [Text.backslash, 'f']
  else if c.toNat < 0x20 then Text.backslash :: 'u' :: Text.hexDigits 4 c.toNat
  else [c]

/-- A string between double quotes. -/
def stringText (s : String) : String :=
  String.ofList (Text.doubleQuote :: s.toList.flatMap escapedChar ++ [Text.doubleQuote])

/-- The start of a line at a level of nesting. -/
def newLine (level : Nat) : String :=
  String.ofList ('\n' :: List.replicate (2 * level) ' ')

mutual

/-- The text of a value at a level of nesting. -/
def renderAt (level : Nat) : Json → String
  | .null => "null"
  | .bool b => Text.lowerBool b
  | .number n => n.render
  | .string s => stringText s
  | .array [] => "[]"
  | .array (item :: rest) =>
    "[" ++ newLine (level + 1) ++ renderAt (level + 1) item ++ renderItems (level + 1) rest ++
      newLine level ++ "]"
  | .object [] => "\x7b\x7d"
  | .object ((key, value) :: rest) =>
    "\x7b" ++ newLine (level + 1) ++ stringText key ++ ": " ++ renderAt (level + 1) value ++
      renderFields (level + 1) rest ++ newLine level ++ "\x7d"

/-- The items of a list after the first. -/
def renderItems (level : Nat) : List Json → String
  | [] => ""
  | item :: rest => "," ++ newLine level ++ renderAt level item ++ renderItems level rest

/-- The fields of an object after the first. -/
def renderFields (level : Nat) : List (String × Json) → String
  | [] => ""
  | (key, value) :: rest =>
    "," ++ newLine level ++ stringText key ++ ": " ++ renderAt level value ++
      renderFields level rest

end

/-- The text of a value. -/
def render (j : Json) : String :=
  j.renderAt 0

mutual

/-- What keeps a value from being written with room for so many calls inside each other, the first
such thing in the order of the text. -/
def writeFault? : (room : Nat) → Json → Option JsonWriteError
  | 0, _ => some .nestedTooDeep
  | room + 1, .number n => n.writeFault? room
  | room + 1, .array items => itemsFault? room items
  | room + 1, .object fields => fieldsFault? room fields
  | _ + 1, _ => none

/-- What keeps the items of a list from being written. -/
def itemsFault? (room : Nat) : List Json → Option JsonWriteError
  | [] => none
  | item :: rest => (writeFault? room item).or (itemsFault? room rest)

/-- What keeps the fields of an object from being written. -/
def fieldsFault? (room : Nat) : List (String × Json) → Option JsonWriteError
  | [] => none
  | (_, value) :: rest => (writeFault? room value).or (fieldsFault? room rest)

end

end Json

end DecisionTrace
