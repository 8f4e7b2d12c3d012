/-!
# Lines of a text file

A line ends at a line feed, at a carriage return, or at the pair of both; no other character ends
a line, so form feeds and the Unicode line separators stay inside theirs.
-/

namespace DecisionTrace.Text

/-- The lines of a text without their ends; the part after the last end is a line too, even when
it is empty. -/
def lines : List Char → List (List Char)
  | [] => [[]]
  | '\r' :: '\n' :: rest => [] :: lines rest
  | c :: rest =>
    if c = '\n' ∨ c = '\r' then [] :: lines rest
    else
      match lines rest with
      | [] => [[c]]
      | line :: others => (c :: line) :: others

end DecisionTrace.Text
