import DecisionTrace.Json.Number
import DecisionTrace.Text.Quoted

/-!
# JSON values

Objects keep the order of their fields. Some questions can be asked of any value: whether it counts
as true, how long it is, what it holds one after the other, and what a field of it is. A value that
cannot answer says why.
-/

namespace DecisionTrace

/-- A JSON value. -/
inductive Json where
  | null
  | bool (b : Bool)
  | number (n : JsonNumber)
  | string (s : String)
  | array (items : List Json)
  | object (fields : List (String × Json))
deriving Inhabited

/-- Why a value cannot answer a question. -/
inductive JsonQueryError where
  /-- The object has no field of this name. -/
  | missingField (key : String)
  /-- The value holds nothing one after the other. -/
  | notIterable (kind : String)
  /-- The value has no fields and no items. -/
  | notSubscriptable (kind : String)
  /-- The items of a list have numbers, not names. -/
  | listIndex
  /-- The characters of a string have numbers, not names. -/
  | stringIndex
  /-- The value has no length. -/
  | noLength (kind : String)
deriving DecidableEq, Repr

/-- The message of a question that cannot be answered. -/
def JsonQueryError.message : JsonQueryError → String
  | .missingField key => Text.quoted key
  | .notIterable kind => "'" ++ kind ++ "' object is not iterable"
  | .notSubscriptable kind => "'" ++ kind ++ "' object is not subscriptable"
  | .listIndex => "list indices must be integers or slices, not str"
  | .stringIndex => "string indices must be integers, not 'str'"
  | .noLength kind => "object of type '" ++ kind ++ "' has no len()"

namespace Json

/-- An integer. -/
def integer (n : Int) : Json :=
  .number (.integer n)

/-- A list of strings. -/
def strings (items : List String) : Json :=
  .array (items.map .string)

/-- The word for the kind of a value. -/
def kind : Json → String
  | .null => "NoneType"
  | .bool _ => "bool"
  | .number (.integer _) => "int"
  | .number _ => "float"
  | .string _ => "str"
  | .array _ => "list"
  | .object _ => "dict"

/-- Whether the value counts as true: everything does but null, false, zero and what is empty. -/
def isTrue : Json → Bool
  | .null => false
  | .bool b => b
  | .number n => !n.isZero
  | .string s => !s.isEmpty
  | .array items => !items.isEmpty
  | .object fields => !fields.isEmpty

/-- The number of items, fields or characters. -/
def length : Json → Except JsonQueryError Nat
  | .string s => .ok s.length
  | .array items => .ok items.length
  | .object fields => .ok fields.length
  | other => .error (.noLength other.kind)

/-- The items of a list, the names of an object, or the characters of a string. -/
def items : Json → Except JsonQueryError (List Json)
  | .array items => .ok items
  | .object fields => .ok (fields.map fun field => .string field.1)
  | .string s => .ok (s.toList.map fun c => .string (String.singleton c))
  | other => .error (.notIterable other.kind)

/-- The field of an object. -/
def field (key : String) : Json → Except JsonQueryError Json
  | .object fields =>
    match fields.lookup key with
    | some value => .ok value
    | none => .error (.missingField key)
  | .array _ => .error .listIndex
  | .string _ => .error .stringIndex
  | other => .error (.notSubscriptable other.kind)

end Json

end DecisionTrace
