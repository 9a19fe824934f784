/-
This file defines finite double-precision numbers by their bits. Metadata may hold such
numbers, and their text has to be exact, so nothing here goes through floating-point
operations of the machine: a number is a sign and a word of 63 bits, the word denotes
`significand * 2 ^ exponent`, and every operation rounds an exact quotient of naturals.
-/

namespace FlowGraph

/-- A finite double: the sign and the other 63 bits. The words are ordered as the numbers
they denote, and the bound keeps infinities and undefined numbers out. -/
structure Binary64 where
  negative : Bool
  word : Nat
  finite : word < 2047 <<< 52
  deriving DecidableEq

namespace Binary64

/-- The number of values between two powers of two. -/
def binade : Nat := 1 <<< 52

/-- The first word that denotes no finite number. -/
def infinityWord : Nat := 2047 <<< 52

/-- The integer `m` of the value `m * 2 ^ e` of a word. -/
def significand (word : Nat) : Nat :=
  if word < binade then word else word % binade + binade

/-- The integer `e` of the value `m * 2 ^ e` of a word. -/
def exponent (word : Nat) : Int :=
  if word < binade then -1074 else (word / binade : Nat) - 1075

/-- The value of a word as a numerator and a denominator. -/
def quotient (word : Nat) : Nat × Nat :=
  if exponent word < 0 then (significand word, 1 <<< (-exponent word).toNat)
  else (significand word <<< (exponent word).toNat, 1)

/-- The quotient rounded to an integer, halves to the even neighbour. -/
def roundHalfEven (numerator denominator : Nat) : Nat :=
  let floor := numerator / denominator
  let rest := numerator % denominator
  if 2 * rest > denominator ∨ (2 * rest = denominator ∧ floor % 2 = 1) then floor + 1 else floor

/-- The exponent at which the quotient has a significand of 53 bits, or the least exponent
where that many bits are not to be had. -/
def roundingExponent (numerator denominator : Nat) : Int :=
  let guess : Int := (numerator.log2 : Int) - denominator.log2 - 52
  let below :=
    if guess + 52 < 0 then numerator <<< (-(guess + 52)).toNat < denominator
    else numerator < denominator <<< (guess + 52).toNat
  max (if below then guess - 1 else guess) (-1074)

/-- The word nearest to a quotient, ties to the even word. Words beyond the finite ones stand
for quotients that are too large. A significand that rounds up to the next power of two
carries into the exponent, where it belongs. -/
def nearest (numerator denominator : Nat) : Nat :=
  if numerator = 0 then 0
  else
    let scale := roundingExponent numerator denominator
    let significand :=
      if scale < 0 then roundHalfEven (numerator <<< (-scale).toNat) denominator
      else roundHalfEven numerator (denominator <<< scale.toNat)
    (scale + 1074).toNat * binade + significand

/-- The word nearest to the product of two words. -/
def times (left right : Nat) : Nat :=
  nearest ((quotient left).1 * (quotient right).1) ((quotient left).2 * (quotient right).2)

/-- The word nearest to the quotient of two words, the second one not zero. -/
def divide (left right : Nat) : Nat :=
  nearest ((quotient left).1 * (quotient right).2) ((quotient left).2 * (quotient right).1)

/-- The word nearest to a power of ten. -/
def powerOfTen (power : Nat) : Nat := nearest (Nat.pow 10 power) 1

/-- The largest power of ten below the infinite words. -/
def greatestPower : Nat := 308

/-- Scales a word by a power of ten, rounding once for each factor. A quotient by more than
`10 ^ 308` takes several divisions; a product that is too large has no word. -/
def scaleByTen (word : Nat) (power : Int) : Option Nat :=
  if power.natAbs ≤ greatestPower then
    let factor := powerOfTen power.natAbs
    let scaled := if power < 0 then divide word factor else times word factor
    if scaled < infinityWord then some scaled else none
  else if word = 0 then some 0
  else if 0 ≤ power then none
  else scaleByTen (divide word (powerOfTen greatestPower)) (power + greatestPower)
  termination_by power.natAbs
  decreasing_by
    simp only [greatestPower] at *
    omega

/-- The number `± digits * 10 ^ power`: the digits are rounded to a double first and the power
is applied to that, so the result may be a neighbour of the nearest double. -/
def ofDecimal (negative : Bool) (digits : Nat) (power : Int) : Option Binary64 :=
  match scaleByTen (nearest digits 1) power with
  | none => none
  | some word => if finite : word < 2047 <<< 52 then some ⟨negative, word, finite⟩ else none

/-- Equality of numbers: the two zeros are equal. -/
def sameNumber (left right : Binary64) : Bool :=
  left.word == right.word && (left.negative == right.negative || left.word == 0)

theorem sameNumber_self (number : Binary64) : sameNumber number number = true := by
  simp [sameNumber]

end Binary64

end FlowGraph
