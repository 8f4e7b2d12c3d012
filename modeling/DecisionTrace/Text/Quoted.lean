import DecisionTrace.Text.Printable

/-!
# Quoted text

Messages show a text between quotes. Apostrophes are the quotes, unless the text holds an
apostrophe and no double quote. Inside, the backslash and the quote in use carry a backslash, line
feed, carriage return and tabulator have their letters, and any other character that is not
printable is written by its code point in two, four or eight hexadecimal digits.
-/

namespace DecisionTrace.Text

/-- A hexadecimal digit in lower case. -/
def hexDigit (d : Nat) : Char :=
  if d < 10 then Char.ofNat (48 + d) else Char.ofNat (87 + d)

/-- The lowest `width` hexadecimal digits of a number, most significant first. -/
def hexDigits : (width n : Nat) → List Char
  | 0, _ => []
  | width + 1, n => hexDigits width (n / 16) ++ [hexDigit (n % 16)]

/-- The apostrophe. -/
def apostrophe : Char := '\x27'

/-- The double quote. -/
def doubleQuote : Char := '\x22'

/-- The backslash. -/
def backslash : Char := '\x5c'

/-- The quote that encloses a text. -/
def enclosingQuote (cs : List Char) : Char :=
  if cs.contains apostrophe && !cs.contains doubleQuote then doubleQuote else apostrophe

/-- The written form of one character between quotes `q`. -/
def quotedChar (q c : Char) : List Char :=
  if c = q || c = backslash then [backslash, c]
  else if c = '\n' then [backslash, 'n']
  else if c = '\r' then [backslash, 'r']
  else if c = '\t' then [backslash, 't']
  else if isPrintable c then [c]
  else if c.toNat < 0x100 then backslash :: 'x' :: hexDigits 2 c.toNat
  else if c.toNat < 0x10000 then backslash :: 'u' :: hexDigits 4 c.toNat
  else backslash :: 'U' :: hexDigits 8 c.toNat

/-- A text between quotes. -/
def quoted (s : String) : String :=
  let cs := s.toList
  let q := enclosingQuote cs
  String.ofList (q :: cs.flatMap (quotedChar q) ++ [q])

/-- A list of texts, each between quotes. -/
def quotedList (items : List String) : String :=
  "[" ++ ", ".intercalate (items.map quoted) ++ "]"

/-- A truth value with a capital letter. -/
def capitalBool (b : Bool) : String :=
  if b then "True" else "False"

/-- A truth value in lower case. -/
def lowerBool (b : Bool) : String :=
  if b then "true" else "false"

end DecisionTrace.Text
