import ThreadSlots.Decimal.Shortest
import ThreadSlots.Json.Basic

/-!
# Writing JSON

`Json.compact` writes a value on one line without blanks, `Json.indented` over several lines with
two blanks per level. In strings the quote, the backslash and the control characters are escaped,
by their short escapes where they have one; every other character stands for itself.

Floating-point numbers have the fewest digits that read back, always with a point or an exponent:
positional from `0.00001` up to below `10 ^ 16`, with an exponent and its sign otherwise.
-/

namespace ThreadSlots.Json

/-- The digit for a number below 16. -/
def hexDigit (n : Nat) : Char :=
  Char.ofNat (if n < 10 then '0'.toNat + n else 'a'.toNat + (n - 10))

/-- A character inside a string. -/
def escapedChar (c : Char) : List Char :=
  if c = '"' then ['\\', '"']
  else if c = '\\' then ['\\', '\\']
  else if c.toNat = 8 then ['\\', 'b']
  else if c.toNat = 12 then ['\\', 'f']
  else if c = '\n' then ['\\', 'n']
  else if c = '\r' then ['\\', 'r']
  else if c = '\t' then ['\\', 't']
  else if c.toNat < 32 then
    ['\\', 'u', '0', '0', hexDigit (c.toNat / 16), hexDigit (c.toNat % 16)]
  else [c]

/-- A quoted string. -/
def quoted (s : String) : List Char :=
  '"' :: s.toList.flatMap escapedChar ++ ['"']

/-- Digits with an exponent: `d`, `d.ddd`, then `e` and the signed exponent. -/
def scientific (d : Decimal.Digits) : List Char :=
  let mantissa := match d.digits with
    | first :: second :: rest => first :: '.' :: second :: rest
    | digits => digits
  let sign := if d.exponent < 0 then '-' else '+'
  mantissa ++ 'e' :: sign :: d.exponent.natAbs.repr.toList

/-- Digits without an exponent, with at least one place before and after the point. -/
def positional (d : Decimal.Digits) : List Char :=
  if d.exponent < 0 then
    '0' :: '.' :: List.replicate (d.exponent.natAbs - 1) '0' ++ d.digits
  else
    let places := d.exponent.toNat + 1
    let whole := d.digits.take places
    let fraction := d.digits.drop places
    whole ++ List.replicate (places - whole.length) '0' ++
      '.' :: (if fraction.isEmpty then ['0'] else fraction)

/-- A floating-point number. -/
def floatText (negative : Bool) (x : Decimal.Magnitude) : List Char :=
  let magnitude :=
    if x.isZero then ['0', '.', '0']
    else
      let d := x.shortest
      if -5 ≤ d.exponent ∧ d.exponent < 16 then positional d else scientific d
  if negative then '-' :: magnitude else magnitude

/-- An integer. -/
def intText (i : Int) : List Char :=
  if i < 0 then '-' :: i.natAbs.repr.toList else i.natAbs.repr.toList

mutual

/-- The value on one line. -/
def compact : Json → List Char
  | .null => ['n', 'u', 'l', 'l']
  | .bool true => ['t', 'r', 'u', 'e']
  | .bool false => ['f', 'a', 'l', 's', 'e']
  | .int i => intText i
  | .float negative x => floatText negative x
  | .str s => quoted s
  | .arr [] => ['[', ']']
  | .arr (v :: vs) => '[' :: compact v ++ compactElements vs
  | .obj [] => ['\x7b', '\x7d']
  | .obj ((k, v) :: fs) => '\x7b' :: quoted k ++ ':' :: compact v ++ compactFields fs

/-- The elements after the first, with the closing bracket. -/
def compactElements : List Json → List Char
  | [] => [']']
  | v :: vs => ',' :: compact v ++ compactElements vs

/-- The fields after the first, with the closing brace. -/
def compactFields : List (String × Json) → List Char
  | [] => ['\x7d']
  | (k, v) :: fs => ',' :: quoted k ++ ':' :: compact v ++ compactFields fs

end

/-- A new line, indented to a level. -/
def newline (level : Nat) : List Char := '\n' :: List.replicate (2 * level) ' '

mutual

/-- The value over several lines; its first line is already indented to `level`. -/
def indentedAt (level : Nat) : Json → List Char
  | .arr [] => ['[', ']']
  | .arr (v :: vs) =>
    '[' :: newline (level + 1) ++ indentedAt (level + 1) v ++ indentedElements level vs
  | .obj [] => ['\x7b', '\x7d']
  | .obj ((k, v) :: fs) =>
    '\x7b' :: newline (level + 1) ++ quoted k ++ ':' :: ' ' :: indentedAt (level + 1) v ++
      indentedFields level fs
  | v => compact v

/-- The elements after the first, with the closing bracket. -/
def indentedElements (level : Nat) : List Json → List Char
  | [] => newline level ++ [']']
  | v :: vs =>
    ',' :: newline (level + 1) ++ indentedAt (level + 1) v ++ indentedElements level vs

/-- The fields after the first, with the closing brace. -/
def indentedFields (level : Nat) : List (String × Json) → List Char
  | [] => newline level ++ ['\x7d']
  | (k, v) :: fs =>
    ',' :: newline (level + 1) ++ quoted k ++ ':' :: ' ' :: indentedAt (level + 1) v ++
      indentedFields level fs

end

/-- The value on one line, as a text. -/
def render (v : Json) : String := String.ofList v.compact

/-- The value over several lines, as a text. -/
def indented (v : Json) : String := String.ofList (v.indentedAt 0)

end ThreadSlots.Json
