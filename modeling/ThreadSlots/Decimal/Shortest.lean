import ThreadSlots.Decimal.Binary

/-!
# Shortest decimal digits

The digits of a magnitude are the fewest that determine it: every decimal number strictly nearer to
`x` than to any other magnitude reads back as `x`, and so do the two ends of that interval if the
mantissa is even. For one digit, two digits and so on, up to the seventeen that always suffice, the
two neighbours of `x` on the grid of that many digits are tried; the first grid with a neighbour in
the interval wins, and of two neighbours the nearer, or the even one where they are equally near.
-/

namespace ThreadSlots.Decimal

/-- A decimal number `d₀.d₁d₂… · 10 ^ exponent`, given by the whole number with the digits
`d₀d₁d₂…`. -/
structure Digits where
  digits : List Char
  exponent : Int
  deriving DecidableEq, Repr

namespace Magnitude

/-- Compare `a · 10 ^ k` with `b · 2 ^ e`. -/
def comparePowers (a : Nat) (k : Int) (b : Nat) (e : Int) : Ordering :=
  compare (a * tenPow k.toNat * twoPow (-e).toNat) (b * twoPow e.toNat * tenPow (-k).toNat)

/-- Whether `c · 10 ^ k` reads back as `x`. The ends of the interval lie half way to the next
magnitudes; below a power of two the next magnitude is only half as far. -/
def readsBack (x : Magnitude) (c : Nat) (k : Int) : Bool :=
  let e := x.exponent - 2
  let below := if x.mantissa = twoPow (precision - 1) ∧ leastExponent < x.exponent then 1 else 2
  let low := comparePowers c k (4 * x.mantissa - below) e
  let high := comparePowers c k (4 * x.mantissa + 2) e
  if x.mantissa % 2 = 0 then low != .lt && high != .gt else low == .gt && high == .lt

/-- The `k` with `10 ^ k ≤ x < 10 ^ (k + 1)`, for `x` not zero. -/
def decimalExponent (x : Magnitude) : Int :=
  let (n, d) := x.ratio
  if d ≤ n then ((n / d).repr.length : Int) - 1
  else
    let places := (d / n).repr.length
    if d ≤ n * tenPow (places - 1) then 1 - (places : Int) else -places

/-- The whole number below `x` on the grid of multiples of `10 ^ k`. -/
def floorOn (x : Magnitude) (k : Int) : Nat :=
  let (n, d) := x.ratio
  n * tenPow (-k).toNat / (d * tenPow k.toNat)

/-- The multiple of `10 ^ k` that stands for `x`, if one reads back as `x`. -/
def onGrid? (x : Magnitude) (k : Int) : Option Nat :=
  let c := x.floorOn k
  match x.readsBack c k, x.readsBack (c + 1) k with
  | true, false => some c
  | false, true => some (c + 1)
  | false, false => none
  | true, true =>
    match comparePowers (2 * c + 1) k (2 * x.mantissa) x.exponent with
    | .lt => some (c + 1)
    | .gt => some c
    | .eq => some (if c % 2 = 0 then c else c + 1)

/-- The first grid among those of `n, n + 1, …` digits on which a number stands for `x`, whose
decimal exponent is `k`. -/
def shortestFrom (x : Magnitude) (k : Int) (n : Nat) : Nat → Nat × Int
  | 0 => (x.floorOn (k + 1 - n), k + 1 - n)
  | tries + 1 =>
    match x.onGrid? (k + 1 - n) with
    | some c => (c, k + 1 - n)
    | none => shortestFrom x k (n + 1) tries

/-- The fewest digits that determine `x`, not zero; no zeros stand at their end. -/
def shortest (x : Magnitude) : Digits :=
  let (c, k) := shortestFrom x x.decimalExponent 1 17
  let text := c.repr.toList
  { digits := (text.reverse.dropWhile (· == '0')).reverse
    exponent := k + text.length - 1 }

end Magnitude

end ThreadSlots.Decimal
