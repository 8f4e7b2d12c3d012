/-!
# Blank characters

What counts as blank when clause text and trace lines are trimmed. The class is wider than the
space and the usual control characters: it holds the information separators, the next-line
character, the no-break space and every space of the general punctuation block, so that a name
copied from a document never keeps an invisible edge.

All functions work on lists of characters; the readers convert at their border.
-/

namespace DecisionTrace.Text

/-- Membership of a character in a table of closed ranges of code points. -/
def inRanges (ranges : List (Nat × Nat)) (c : Char) : Bool :=
  ranges.any fun r => r.1 ≤ c.toNat && c.toNat ≤ r.2

/-- The code points that count as blank, as closed ranges in increasing order. -/
def blankRanges : List (Nat × Nat) :=
  [(0x09, 0x0D), (0x1C, 0x20), (0x85, 0x85), (0xA0, 0xA0), (0x1680, 0x1680), (0x2000, 0x200A),
   (0x2028, 0x2029), (0x202F, 0x202F), (0x205F, 0x205F), (0x3000, 0x3000)]

/-- A blank character. -/
def isBlank (c : Char) : Bool :=
  inRanges blankRanges c

/-- The text without its leading blanks. -/
def trimLeft (cs : List Char) : List Char :=
  cs.dropWhile isBlank

/-- The text without its trailing blanks. -/
def trimRight (cs : List Char) : List Char :=
  (cs.reverse.dropWhile isBlank).reverse

/-- The text without blanks at either end. -/
def trim (cs : List Char) : List Char :=
  trimRight (trimLeft cs)

/-- The pieces of a text between the characters that satisfy `stop`, in order; a text without
such a character is one piece. -/
def cut (stop : Char → Bool) : List Char → List (List Char)
  | [] => [[]]
  | c :: rest =>
    if stop c then [] :: cut stop rest
    else
      match cut stop rest with
      | [] => [[c]]
      | piece :: pieces => (c :: piece) :: pieces

/-- The pieces of a text between the characters that satisfy `stop`, each of which takes the blanks
on both its sides along. -/
def separate (stop : Char → Bool) : List Char → List (List Char)
  | [] => [[]]
  | c :: rest =>
    match separate stop rest with
    | [] => [[c]]
    | piece :: pieces =>
      if stop c then [] :: trimLeft piece :: pieces
      -- an empty piece with others behind it ends at a separator
      else if isBlank c && piece.isEmpty && !pieces.isEmpty then piece :: pieces
      else (c :: piece) :: pieces

/-- What follows `lead` in a text that starts with it. -/
def after? : (lead text : List Char) → Option (List Char)
  | [], text => some text
  | _ :: _, [] => none
  | l :: lead, c :: text => if l = c then after? lead text else none

/-- What precedes `tail` in a text that ends with it. -/
def before? (tail text : List Char) : Option (List Char) :=
  (after? tail.reverse text.reverse).map List.reverse

end DecisionTrace.Text
