/-
This file writes a double with the fewest decimal digits that identify it. A decimal
identifies a double when it lies between the midpoints to the two neighbouring doubles, the
midpoints included when the significand is even. For one, two, … seventeen digits the two
neighbours of the exact value on that decimal grid are tried; the first grid with a hit
wins, and of two hits the nearer one.
-/

import FlowGraph.Binary64

namespace FlowGraph.Binary64

/-- `left / right * 10 ^ power` as a numerator and a denominator. -/
def scaleQuotient (left right : Nat) (power : Int) : Nat × Nat :=
  if power < 0 then (left, right * Nat.pow 10 (-power).toNat)
  else (left * Nat.pow 10 power.toNat, right)

/-- Whether `digits * 10 ^ power` rounds to the double of this word. The bounds are four times
the value of the word plus or minus the distances to the midpoints, which are two quarters
of a unit, or one quarter below a power of two. -/
def identifies (word digits : Nat) (power : Int) : Bool :=
  let significand := significand word
  let below := if significand = binade ∧ exponent word > -1074 then 1 else 2
  let lower := 4 * significand - below
  let upper := 4 * significand + 2
  let scale := exponent word - 2
  -- compare `digits * 10 ^ power` with `bound * 2 ^ scale`
  let left := (digits * Nat.pow 10 power.toNat) <<< (-scale).toNat
  let unit := Nat.pow 10 (-power).toNat <<< scale.toNat
  if significand % 2 = 0 then lower * unit ≤ left ∧ left ≤ upper * unit
  else lower * unit < left ∧ left < upper * unit

/-- The least `k` with the value of the word below `10 ^ k`, searched upwards. -/
def decimalScale (word : Nat) : Int :=
  let (numerator, denominator) := quotient word
  let guess : Int := (((numerator.log2 : Int) - denominator.log2 - 1) * 30103).fdiv 100000
  let fits (power : Int) : Bool :=
    let (scaled, unit) := scaleQuotient numerator denominator (-power)
    scaled < unit
  ((List.range 4).map fun (step : Nat) => guess + step).find? fits |>.getD (guess + 4)

/-- The decimal of the given digit count that identifies the word, if there is one. -/
def identifiedWithin (word : Nat) (scale : Int) (count : Nat) : Option (Nat × Int) :=
  let power := scale - count
  let (numerator, denominator) := quotient word
  let (scaled, unit) := scaleQuotient numerator denominator (-power)
  let floor := scaled / unit
  match identifies word floor power, identifies word (floor + 1) power with
  | true, true =>
    let rest := 2 * (scaled % unit)
    if rest < unit ∨ (rest = unit ∧ floor % 2 = 0) then some (floor, power)
    else some (floor + 1, power)
  | true, false => some (floor, power)
  | false, true => some (floor + 1, power)
  | false, false => none

/-- Moves trailing zeros of the digits into the power of ten. -/
def stripZeros (fuel digits : Nat) (power : Int) : Nat × Int :=
  match fuel with
  | 0 => (digits, power)
  | fuel + 1 =>
    if digits % 10 = 0 ∧ digits ≠ 0 then stripZeros fuel (digits / 10) (power + 1)
    else (digits, power)

/-- The fewest digits that identify a word other than zero, with their power of ten. -/
def shortest (word : Nat) : Nat × Int :=
  let scale := decimalScale word
  let found := (List.range 17).findSome? fun extra => identifiedWithin word scale (extra + 1)
  let (digits, power) := found.getD ((quotient word).1 / (quotient word).2, 0)
  stripZeros 20 digits power

end FlowGraph.Binary64
