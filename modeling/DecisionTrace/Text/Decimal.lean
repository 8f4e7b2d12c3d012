/-!
# Decimal numerals

Numbers are written in the ten ASCII digits without leading zeros. Reading is more liberal: every
character with the decimal-digit property counts, whatever its script, and leading zeros are
allowed. Such digits come in runs of ten consecutive code points, so the table lists only the
zero of each run.

Where numerals come from outside or go there, the number of their digits is limited. The limit is
for the places that use it; the functions here know none.
-/

namespace DecisionTrace.Text

/-- The ASCII digit of a value below ten. -/
def digitChar (d : Nat) : Char :=
  Char.ofNat (48 + d)

/-- The digits of a natural number, most significant first. -/
def naturalDigits (n : Nat) : List Char :=
  if n < 10 then [digitChar n] else naturalDigits (n / 10) ++ [digitChar (n % 10)]

/-- The decimal numeral of a natural number. -/
def natural (n : Nat) : String :=
  String.ofList (naturalDigits n)

/-- The decimal numeral of an integer; a negative one carries a minus sign. -/
def integer : Int → String
  | .ofNat n => natural n
  | .negSucc n => "-" ++ natural (n + 1)

/-- The largest number of digits that a numeral may have. -/
def maxDigits : Nat := 4300

/-- What is said of a numeral with too many digits; the middle is about the one at hand. -/
def digitLimitMessage (middle : String) : String :=
  "Exceeds the limit (" ++ natural maxDigits ++ " digits) for integer string conversion" ++
    middle ++ "; use sys.set_int_max_str_digits() to increase the limit"

/-- The message of a numeral that has too many digits to be read. -/
def tooManyDigitsMessage (count : Nat) : String :=
  digitLimitMessage (": value has " ++ natural count ++ " digits")

/-- Whether a number has too many digits to be written. -/
def exceedsDigits (n : Int) : Bool :=
  Nat.pow 10 maxDigits ≤ n.natAbs

/-- The message of a number that has too many digits to be written. -/
def unwritableMessage : String :=
  digitLimitMessage ""

/-- The code point of the zero of every run of decimal digits, in increasing order. -/
def digitZeros : List Nat :=
  [0x30, 0x660, 0x6F0, 0x7C0, 0x966, 0x9E6, 0xA66, 0xAE6, 0xB66, 0xBE6, 0xC66, 0xCE6, 0xD66, 0xDE6,
   0xE50, 0xED0, 0xF20, 0x1040, 0x1090, 0x17E0, 0x1810, 0x1946, 0x19D0, 0x1A80, 0x1A90, 0x1B50,
   0x1BB0, 0x1C40, 0x1C50, 0xA620, 0xA8D0, 0xA900, 0xA9D0, 0xA9F0, 0xAA50, 0xABF0, 0xFF10, 0x104A0,
   0x10D30, 0x11066, 0x110F0, 0x11136, 0x111D0, 0x112F0, 0x11450, 0x114D0, 0x11650, 0x116C0,
   0x11730, 0x118E0, 0x11950, 0x11C50, 0x11D50, 0x11DA0, 0x16A60, 0x16AC0, 0x16B50, 0x1D7CE,
   0x1D7D8, 0x1D7E2, 0x1D7EC, 0x1D7F6, 0x1E140, 0x1E2F0, 0x1E950, 0x1FBF0]

/-- The value of a decimal digit of any script. -/
def digitValue? (c : Char) : Option Nat :=
  (digitZeros.find? fun first => first ≤ c.toNat && c.toNat ≤ first + 9).map (c.toNat - ·)

/-- A decimal digit of any script. -/
def isDigit (c : Char) : Bool :=
  (digitValue? c).isSome

/-- The number that a text of decimal digits denotes; the empty text and any other character
denote none. -/
def readNatural? : List Char → Option Nat
  | [] => none
  | c :: cs => (c :: cs).foldl (fun n d => do return 10 * (← n) + (← digitValue? d)) (some 0)

/-- A numeral with its digits in groups of three, counted from the right and divided by commas. -/
def grouped (n : Nat) : String :=
  String.ofList (group (naturalDigits n).reverse).reverse
where
  /-- Commas after every third digit of a reversed numeral, except at its end. -/
  group : List Char → List Char
    | a :: b :: c :: d :: rest => a :: b :: c :: ',' :: group (d :: rest)
    | short => short

end DecisionTrace.Text
