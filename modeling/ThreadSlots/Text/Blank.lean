/-!
# Blank characters, trimming and letter case

`isBlank` is the Unicode property `White_Space`: the six ASCII controls and space, the next-line
control, and the space separators and line separators beyond ASCII. `trim` removes blanks from both
ends of a text and nothing else, so it is idempotent and never touches the inside.

Letter case is folded for ASCII letters only: every other character is kept.
-/

namespace ThreadSlots.Text

/-- The Unicode property `White_Space`. -/
def isBlank (c : Char) : Bool :=
  let n := c.toNat
  (9 ≤ n && n ≤ 13) || n == 0x20 || n == 0x85 || n == 0xA0 || n == 0x1680 ||
    (0x2000 ≤ n && n ≤ 0x200A) || n == 0x2028 || n == 0x2029 || n == 0x202F ||
    n == 0x205F || n == 0x3000

/-- The characters without the blanks at their end. -/
def trimEnd (cs : List Char) : List Char :=
  (cs.reverse.dropWhile isBlank).reverse

/-- The characters without the blanks at either end. -/
def trim (cs : List Char) : List Char :=
  trimEnd (cs.dropWhile isBlank)

/-- The text without surrounding blanks, its ASCII letters in lower case. -/
def keyword (s : String) : String :=
  String.ofList ((trim s.toList).map Char.toLower)

end ThreadSlots.Text
