import ThreadSlots.Text.Visible

/-!
# Texts between quotes

A text inside a description stands between double quotes. A quote or a backslash in it has a
backslash in front, the common control characters have an escape of one letter, and every other
character that leaves no mark of its own is written by its number in hexadecimal digits.
-/

namespace ThreadSlots.Text

/-- The number in hexadecimal digits, without zeros in front. -/
def hexText (n : Nat) : List Char := Nat.toDigits 16 n

/-- A character as it stands between quotes. -/
def quotedChar (c : Char) : List Char :=
  match c with
  | '"' => ['\\', '"']
  | '\\' => ['\\', '\\']
  | '\n' => ['\\', 'n']
  | '\r' => ['\\', 'r']
  | '\t' => ['\\', 't']
  | '\x00' => ['\\', '0']
  | c => if isVisible c then [c] else ['\\', 'u', '\x7b'] ++ hexText c.toNat ++ ['\x7d']

/-- The text between double quotes. -/
def quoted (s : String) : String :=
  String.ofList ('"' :: s.toList.flatMap quotedChar ++ ['"'])

end ThreadSlots.Text
