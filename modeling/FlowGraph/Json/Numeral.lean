/-
This file reads numbers. A numeral is an optional minus sign, digits without a leading zero,
and then, both optional, a point with digits and an exponent. Without those two it is an
integer if it fits into 64 bits; the negative zero and everything else is a double. The
leading digits that fit into 64 bits make up the significand of a double, the digits after
them only count, and the significand is then scaled by a power of ten.
-/

import FlowGraph.Json.Value

namespace FlowGraph.Json

/-- A number as it is written. -/
structure Numeral where
  negative : Bool
  whole : List Nat
  fraction : List Nat
  exponent : Option Int
  deriving DecidableEq

namespace Numeral

/-- The digits at the front of a text, as numbers, and what follows them. -/
def takeDigits (marks : List Char) : List Nat × List Char :=
  ((marks.takeWhile Char.isDigit).map fun mark => mark.toNat - '0'.toNat,
    marks.dropWhile Char.isDigit)

/-- The natural number that digits denote. -/
def ofDigits (digits : List Nat) : Nat := digits.foldl (fun total digit => total * 10 + digit) 0

/-- The exponent at the end of a numeral, absent if nothing is left. -/
def exponent? : List Char → Option (Option Int)
  | [] => some none
  | mark :: rest =>
    if mark = 'e' ∨ mark = 'E' then
      let (negative, marks) := match rest with
        | '-' :: after => (true, after)
        | '+' :: after => (false, after)
        | after => (false, after)
      match takeDigits marks with
      | (digit :: digits, []) =>
        let size : Int := ofDigits (digit :: digits)
        some (some (if negative then -size else size))
      | _ => none
    else none

/-- The digits after the point and what follows them; no digits if there is no point. -/
def fraction? : List Char → Option (List Nat × List Char)
  | '.' :: rest =>
    match takeDigits rest with
    | ([], _) => none
    | found => some found
  | rest => some ([], rest)

/-- Reads a numeral that makes up the whole text. -/
def ofMarks? (marks : List Char) : Option Numeral := do
  let (negative, unsigned) := match marks with
    | '-' :: rest => (true, rest)
    | rest => (false, rest)
  let (whole, afterWhole) := takeDigits unsigned
  guard (whole ≠ [] ∧ (whole.head? = some 0 → whole.length = 1))
  let (fraction, afterFraction) ← fraction? afterWhole
  let exponent ← exponent? afterFraction
  return { negative, whole, fraction, exponent }

/-- The greatest significand. -/
def significandLimit : Nat := UInt64.size - 1

/-- Appends digits to a significand as long as it stays within 64 bits, and returns it with the
number of digits taken. -/
def absorb (significand : Nat) (taken : Nat) : List Nat → Nat × Nat
  | [] => (significand, taken)
  | digit :: rest =>
    if significand * 10 + digit ≤ significandLimit then
      absorb (significand * 10 + digit) (taken + 1) rest
    else (significand, taken)

/-- The number that a numeral denotes, unless it is too large for a double. -/
def number? (numeral : Numeral) : Option Number :=
  let (whole, wholeTaken) := absorb 0 0 numeral.whole
  let excess := numeral.whole.length - wholeTaken
  if numeral.fraction = [] ∧ numeral.exponent = none ∧ excess = 0 then
    if !numeral.negative then some (.integer whole)
    else if 0 < whole ∧ whole ≤ UInt64.size / 2 then some (.integer (-whole))
    else (Binary64.ofDecimal true whole 0).map .real
  else
    let (significand, fractionTaken) := absorb whole 0 numeral.fraction
    let power : Int := excess - fractionTaken + numeral.exponent.getD 0
    (Binary64.ofDecimal numeral.negative significand power).map .real

end Numeral

end FlowGraph.Json
