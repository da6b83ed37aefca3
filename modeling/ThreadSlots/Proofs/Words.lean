/-!
# Arithmetic on 64-bit words

Sums, products and differences of words without a sign, where a result that does not fit is no
result. A formula on numbers that is evaluated with these says that no step of it leaves the words.
-/

namespace ThreadSlots

namespace Word

/-- What a 64-bit word without a sign cannot hold any more. -/
def bound : Nat := 18446744073709551616

/-- The sum of two words, unless it overflows. -/
def add (a b : Nat) : Option Nat := if a + b < bound then some (a + b) else none

/-- The product of two words, unless it overflows. -/
def mul (a b : Nat) : Option Nat := if a * b < bound then some (a * b) else none

/-- The difference of two words, unless it is below zero. -/
def sub (a b : Nat) : Option Nat := if b ≤ a then some (a - b) else none

theorem add_eq {a b : Nat} (h : a + b < bound) : add a b = some (a + b) := if_pos h

theorem mul_eq {a b : Nat} (h : a * b < bound) : mul a b = some (a * b) := if_pos h

theorem sub_eq {a b : Nat} (h : b ≤ a) : sub a b = some (a - b) := if_pos h

end Word

end ThreadSlots
