import ThreadSlots.Json.Basic

/-!
# Reading JSON

Reading is strict: no trailing commas, no leading zeros, no control characters in strings, no lone
surrogates. Containers nest at most `nestingLimit` deep.

A number without fraction and exponent that fits 64 bits, with or without a sign, is an integer;
`-0` is not. Every other number is floating-point. Its digits are gathered into a whole number as
long as that fits 64 bits, further digits only count for the exponent, and the number is then
multiplied or divided by a power of ten with rounding after each step. A number too large for a
finite result is refused.
-/

namespace ThreadSlots.Json

open Decimal (Magnitude)

/-- What is left of the text after a part of it was read. -/
abbrev Reading (α : Type) := Option (α × List Char)

/-- How deep containers may nest. -/
def nestingLimit : Nat := 127

/-- The characters without the blanks in front. -/
def skipBlanks : List Char → List Char :=
  List.dropWhile fun c => c == ' ' || c == '\n' || c == '\t' || c == '\r'

/-! ## Strings -/

/-- The number of a hexadecimal digit. -/
def hexValue? (c : Char) : Option Nat :=
  if '0' ≤ c ∧ c ≤ '9' then some (c.toNat - '0'.toNat)
  else if 'a' ≤ c ∧ c ≤ 'f' then some (c.toNat - 'a'.toNat + 10)
  else if 'A' ≤ c ∧ c ≤ 'F' then some (c.toNat - 'A'.toNat + 10)
  else none

/-- The number of four hexadecimal digits. -/
def hexQuad? (a b c d : Char) : Option Nat := do
  return (((← hexValue? a) * 16 + (← hexValue? b)) * 16 + (← hexValue? c)) * 16 + (← hexValue? d)

def isHighSurrogate (n : Nat) : Bool := 0xD800 ≤ n && n ≤ 0xDBFF

def isLowSurrogate (n : Nat) : Bool := 0xDC00 ≤ n && n ≤ 0xDFFF

/-- The character of a pair of surrogates. -/
def ofSurrogates (high low : Nat) : Char :=
  Char.ofNat (0x10000 + (high - 0xD800) * 0x400 + (low - 0xDC00))

/-- The character of a short escape. -/
def unescape? : Char → Option Char
  | '"' => some '"'
  | '\\' => some '\\'
  | '/' => some '/'
  | 'b' => some (Char.ofNat 8)
  | 'f' => some (Char.ofNat 12)
  | 'n' => some '\n'
  | 'r' => some '\r'
  | 't' => some '\t'
  | _ => none

/-- Put a character in front of what was read. -/
def push (c : Char) : Reading (List Char) → Reading (List Char)
  | some (s, rest) => some (c :: s, rest)
  | none => none

/-- The rest of a string, up to the closing quote. -/
def stringRest : List Char → Reading (List Char)
  | [] => none
  | '"' :: rest => some ([], rest)
  | '\\' :: 'u' :: a :: b :: c :: d :: '\\' :: 'u' :: e :: f :: g :: h :: rest =>
    match hexQuad? a b c d with
    | none => none
    | some high =>
      if isHighSurrogate high then
        match hexQuad? e f g h with
        | none => none
        | some low =>
          if isLowSurrogate low then push (ofSurrogates high low) (stringRest rest) else none
      else if isLowSurrogate high then none
      else push (Char.ofNat high) (stringRest ('\\' :: 'u' :: e :: f :: g :: h :: rest))
  | '\\' :: 'u' :: a :: b :: c :: d :: rest =>
    match hexQuad? a b c d with
    | none => none
    | some n =>
      if isHighSurrogate n || isLowSurrogate n then none
      else push (Char.ofNat n) (stringRest rest)
  | '\\' :: c :: rest =>
    match unescape? c with
    | none => none
    | some c => push c (stringRest rest)
  | c :: rest => if c.toNat < 32 || c = '\\' then none else push c (stringRest rest)

/-- A string, after its opening quote. -/
def string (cs : List Char) : Reading String :=
  (stringRest cs).map fun (s, rest) => (String.ofList s, rest)

/-! ## Numbers -/

/-- The number of a decimal digit. -/
def digitValue? (c : Char) : Option Nat :=
  if '0' ≤ c ∧ c ≤ '9' then some (c.toNat - '0'.toNat) else none

/-- The character is a decimal digit. -/
def isDigit (c : Char) : Bool := (digitValue? c).isSome

/-- The characters after the digits in front. -/
def skipDigits : List Char → List Char := List.dropWhile isDigit

/-- Append digits to a whole number as long as it fits 64 bits: the number, how many digits were
appended, and the characters from the first digit on that was not. -/
def gather (n count : Nat) : List Char → Nat × Nat × List Char
  | [] => (n, count, [])
  | c :: rest =>
    match digitValue? c with
    | none => (n, count, c :: rest)
    | some d =>
      if n * 10 + d ≤ maxInteger then gather (n * 10 + d) (count + 1) rest
      else (n, count, c :: rest)

/-- The largest power of ten that a number is multiplied or divided by at once. -/
def largestPower : Nat := 308

/-- `x · 10 ^ k`, rounded once. -/
def scaleUp (x : Magnitude) (k : Nat) : Option Magnitude :=
  (Magnitude.ofNat? (Decimal.tenPow k)).bind x.mul?

/-- `x / 10 ^ k`, rounded once. -/
def scaleDown (x : Magnitude) (k : Nat) : Option Magnitude :=
  (Magnitude.ofNat? (Decimal.tenPow k)).bind x.div?

/-- Divide by the largest power of ten `steps` times, rounding each time. -/
def scaleDownBy (x : Magnitude) : (steps : Nat) → Option Magnitude
  | 0 => some x
  | steps + 1 =>
    if x.isZero then some x
    else (scaleDown x largestPower).bind fun x => scaleDownBy x steps

/-- `x · 10 ^ exponent`, reached with as few powers of ten as possible. -/
def scale (x : Magnitude) : (exponent : Int) → Option Magnitude
  | .ofNat k =>
    if k ≤ largestPower then scaleUp x k else if x.isZero then some x else none
  | .negSucc k =>
    let steps := k / largestPower
    (scaleDownBy x steps).bind fun x => scaleDown x (k + 1 - largestPower * steps)

/-- The floating-point number `± n · 10 ^ exponent`. -/
def decimal (negative : Bool) (n : Nat) (exponent : Int) : Option Json := do
  return .float negative (← scale (← Magnitude.ofNat? n) exponent)

/-- The exponent of a number, if one follows: `e`, a sign or none, digits. -/
def exponentPart (negative : Bool) (n : Nat) (exponent : Int) : List Char → Reading Json
  | c :: rest =>
    if c = 'e' ∨ c = 'E' then
      let (down, rest) := match rest with
        | '+' :: rest => (false, rest)
        | '-' :: rest => (true, rest)
        | rest => (false, rest)
      let digits := rest.takeWhile isDigit
      if digits.isEmpty then none
      else
        let size : Nat := digits.foldl (fun n c => n * 10 + (digitValue? c).getD 0) 0
        let exponent := if down then exponent - size else exponent + size
        (decimal negative n exponent).map (·, skipDigits rest)
    else (decimal negative n exponent).map (·, c :: rest)
  | [] => (decimal negative n exponent).map (·, [])

/-- The fraction of a number, after the point: at least one digit. -/
def fractionPart (negative : Bool) (n : Nat) (exponent : Int) (cs : List Char) : Reading Json :=
  if cs.head?.any isDigit then
    let (n, count, rest) := gather n 0 cs
    exponentPart negative n (exponent - count) (skipDigits rest)
  else none

/-- What follows the digits in front of the point, if the number is not an integer. -/
def numberRest (negative : Bool) (n : Nat) (exponent : Int) : List Char → Reading Json
  | '.' :: rest => fractionPart negative n exponent rest
  | rest => exponentPart negative n exponent rest

/-- The number without fraction and exponent. -/
def integer (negative : Bool) (n : Nat) : Option Json :=
  if !negative then some (.int n)
  else if 0 < n ∧ n ≤ 9223372036854775808 then some (.int (-n))
  else decimal true n 0

/-- Whether a number goes on with a fraction or an exponent. -/
def isFloatMark (c : Char) : Bool := c == '.' || c == 'e' || c == 'E'

/-- A number without its sign. -/
def unsigned (negative : Bool) (cs : List Char) : Reading Json :=
  match cs with
  | [] => none
  | c :: rest =>
    match digitValue? c with
    | none => none
    | some 0 =>
      if rest.head?.any isDigit then none
      else if rest.head?.any isFloatMark then numberRest negative 0 0 rest
      else (integer negative 0).map (·, rest)
    | some d =>
      let (n, _, rest) := gather d 1 rest
      let after := skipDigits rest
      let dropped := rest.length - after.length
      if dropped ≠ 0 ∨ after.head?.any isFloatMark then numberRest negative n dropped after
      else (integer negative n).map (·, after)

/-- A number. -/
def number : List Char → Reading Json
  | '-' :: rest => unsigned true rest
  | cs => unsigned false cs

/-! ## Values -/

/-- The elements of an array that is not empty, after its bracket. Each element takes at least one
character, so `fuel` characters hold at most `fuel` elements. -/
def elements (item : List Char → Reading Json) : (fuel : Nat) → List Char → Reading (List Json)
  | 0, _ => none
  | fuel + 1, cs =>
    match item cs with
    | none => none
    | some (v, rest) =>
      match skipBlanks rest with
      | ',' :: rest => (elements item fuel rest).map fun (vs, rest) => (v :: vs, rest)
      | ']' :: rest => some ([v], rest)
      | _ => none

/-- The fields of an object that is not empty, after its brace, in the order in which they
stand. -/
def fields (item : List Char → Reading Json) :
    (fuel : Nat) → List Char → Reading (List (String × Json))
  | 0, _ => none
  | fuel + 1, cs =>
    match skipBlanks cs with
    | '"' :: rest =>
      match string rest with
      | none => none
      | some (name, rest) =>
        match skipBlanks rest with
        | ':' :: rest =>
          match item rest with
          | none => none
          | some (v, rest) =>
            match skipBlanks rest with
            | ',' :: rest =>
              (fields item fuel rest).map fun (fs, rest) => ((name, v) :: fs, rest)
            | '\x7d' :: rest => some ([(name, v)], rest)
            | _ => none
        | _ => none
    | _ => none

/-- An array, after its bracket. -/
def array (item : List Char → Reading Json) (cs : List Char) : Reading Json :=
  match skipBlanks cs with
  | ']' :: rest => some (.arr [], rest)
  | rest => (elements item rest.length rest).map fun (vs, rest) => (.arr vs, rest)

/-- An object, after its brace. -/
def object (item : List Char → Reading Json) (cs : List Char) : Reading Json :=
  match skipBlanks cs with
  | '\x7d' :: rest => some (.obj [], rest)
  | rest => (fields item rest.length rest).map fun (fs, rest) => (record fs, rest)

/-- A value that is no container. -/
def scalar : List Char → Reading Json
  | 'n' :: 'u' :: 'l' :: 'l' :: rest => some (.null, rest)
  | 't' :: 'r' :: 'u' :: 'e' :: rest => some (.bool true, rest)
  | 'f' :: 'a' :: 'l' :: 's' :: 'e' :: rest => some (.bool false, rest)
  | '"' :: rest => (string rest).map fun (s, rest) => (.str s, rest)
  | cs => number cs

/-- A value whose containers nest at most `depth` deep. -/
def value : (depth : Nat) → List Char → Reading Json
  | 0, cs => scalar (skipBlanks cs)
  | depth + 1, cs =>
    match skipBlanks cs with
    | '[' :: rest => array (value depth) rest
    | '\x7b' :: rest => object (value depth) rest
    | rest => scalar rest

/-- The value that the characters write, if they write one and nothing else. -/
def ofChars? (cs : List Char) : Option Json :=
  match value nestingLimit cs with
  | some (v, rest) => if (skipBlanks rest).isEmpty then some v else none
  | none => none

/-- The value that a text writes. -/
def parse? (s : String) : Option Json := ofChars? s.toList

end ThreadSlots.Json
