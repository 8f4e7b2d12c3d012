import DecisionTrace.Text.Decimal
import DecisionTrace.Text.Quoted

/-!
# Seeds as text

A seed is an integer of any size. A text gives it as a numeral, with a minus sign if it is negative;
the sign is none of the digits whose number is limited.
-/

namespace DecisionTrace

/-- Why a text is no seed. -/
inductive SeedError where
  | notANumeral (text : String)
  | tooManyDigits (count : Nat)
deriving DecidableEq, Repr

/-- The message of a text that is no seed. -/
def SeedError.message : SeedError → String
  | .notANumeral text => "invalid literal for int() with base 10: " ++ Text.quoted text
  | .tooManyDigits count => Text.tooManyDigitsMessage count

/-- The seed that a text denotes. -/
def readSeed (text : String) : Except SeedError Int :=
  let (negative, digits) :=
    match text.toList with
    | '-' :: digits => (true, digits)
    | digits => (false, digits)
  if Text.maxDigits < digits.length ∧ digits.all Text.isDigit then
    .error (.tooManyDigits digits.length)
  else
    match Text.readNatural? digits with
    | some n => .ok (if negative then -n else n)
    | none => .error (.notANumeral text)

end DecisionTrace
