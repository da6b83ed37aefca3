/-!
# Lines of a text

A line ends at a line feed, and a carriage return right before that line feed belongs to the end,
not to the line. Characters after the last line feed are a line of their own; a text that ends with
a line feed has no empty line after it.
-/

namespace ThreadSlots.Text

/-- A line that a line feed has ended, given backwards. -/
def endedLine : List Char → List Char
  | '\r' :: cs => cs.reverse
  | cs => cs.reverse

/-- The lines of a text, where `current` holds the characters of the first one so far, backwards. -/
def linesFrom (current : List Char) : List Char → List (List Char)
  | [] => if current.isEmpty then [] else [current.reverse]
  | '\n' :: cs => endedLine current :: linesFrom [] cs
  | c :: cs => linesFrom (c :: current) cs

/-- The lines of a text. -/
def lines (cs : List Char) : List (List Char) := linesFrom [] cs

end ThreadSlots.Text
