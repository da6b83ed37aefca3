/-!
# Padding to a width

A padded text has at least the given number of characters; a text that is already as wide is kept.
-/

namespace ThreadSlots.Text

/-- `s` with copies of `fill` in front until it has `width` characters. -/
def padStart (width : Nat) (fill : Char) (s : String) : String :=
  String.ofList (List.replicate (width - s.length) fill) ++ s

/-- `s` followed by blanks until it has `width` characters. -/
def padEnd (width : Nat) (s : String) : String :=
  s ++ String.ofList (List.replicate (width - s.length) ' ')

/-- The decimal digits of `n`, with zeros in front until there are `width` of them. -/
def zeroPadded (width n : Nat) : String :=
  padStart width '0' (toString n)

end ThreadSlots.Text
