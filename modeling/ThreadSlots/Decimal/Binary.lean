/-!
# Binary floating-point magnitudes

A magnitude is a finite non-negative number `m · 2 ^ e` with at most 53 binary digits in `m` and `e`
not below -1074: the non-negative double-precision numbers, without infinity. All arithmetic is
exact arithmetic of quotients followed by one rounding to the nearest magnitude, where a number half
way between two magnitudes goes to the one with even `m`.
-/

namespace ThreadSlots.Decimal

/-- A power of two. -/
def twoPow (n : Nat) : Nat := Nat.pow 2 n

/-- A power of ten. -/
def tenPow (n : Nat) : Nat := Nat.pow 10 n

/-- The magnitude `mantissa · 2 ^ exponent`. -/
structure Magnitude where
  mantissa : Nat
  exponent : Int
  deriving DecidableEq, Repr

namespace Magnitude

/-- The smallest exponent of a magnitude. -/
def leastExponent : Int := -1074

/-- The largest exponent of a magnitude. -/
def greatestExponent : Int := 971

/-- The number of binary digits of a mantissa. -/
def precision : Nat := 53

def zero : Magnitude := ⟨0, leastExponent⟩

def isZero (x : Magnitude) : Bool := x.mantissa == 0

/-- The quotient `num / den` divided by `2 ^ e`, as a quotient of whole numbers. -/
def scaled (num den : Nat) : Int → Nat × Nat
  | .ofNat e => (num, den * twoPow e)
  | .negSucc e => (num * twoPow (e + 1), den)

/-- The whole number nearest to `num / den`; a half goes to the even neighbour. -/
def roundHalfEven (num den : Nat) : Nat :=
  let q := num / den
  let r := num % den
  if 2 * r < den then q
  else if den < 2 * r then q + 1
  else if q % 2 = 0 then q else q + 1

/-- The exponent at which `num / den`, not zero, has `precision` binary digits before the point, or
`leastExponent` if that is larger. -/
def exponentOf (num den : Nat) : Int :=
  let e := max ((num.log2 : Int) - den.log2 - precision) leastExponent
  let (n, d) := scaled num den e
  if n / d < twoPow precision then e else e + 1

/-- The magnitude nearest to `num / den`, unless that is beyond the largest magnitude. -/
def ofRatio? (num den : Nat) : Option Magnitude :=
  if num = 0 then some zero
  else
    let e := exponentOf num den
    let (n, d) := scaled num den e
    let m := roundHalfEven n d
    let x : Magnitude := if m = twoPow precision then ⟨twoPow (precision - 1), e + 1⟩ else ⟨m, e⟩
    if x.exponent ≤ greatestExponent then some x else none

/-- The magnitude as a quotient of whole numbers. -/
def ratio (x : Magnitude) : Nat × Nat :=
  match x.exponent with
  | .ofNat e => (x.mantissa * twoPow e, 1)
  | .negSucc e => (x.mantissa, twoPow (e + 1))

/-- The product, rounded. -/
def mul? (x y : Magnitude) : Option Magnitude :=
  let (a, b) := x.ratio
  let (c, d) := y.ratio
  ofRatio? (a * c) (b * d)

/-- The quotient, rounded; `y` is not zero. -/
def div? (x y : Magnitude) : Option Magnitude :=
  let (a, b) := x.ratio
  let (c, d) := y.ratio
  ofRatio? (a * d) (b * c)

/-- The magnitude nearest to `n`. -/
def ofNat? (n : Nat) : Option Magnitude := ofRatio? n 1

end Magnitude

end ThreadSlots.Decimal
