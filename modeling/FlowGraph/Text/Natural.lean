/-
This file reads natural numbers of 64 bits. A plus sign may come first. The digits are read
from the left, and the first fault counts: a character that is no digit of the base, or a
digit with which the number no longer fits.
-/

namespace FlowGraph.Text

/-- Why a text is no natural number of 64 bits. -/
inductive NaturalFault where
  | empty
  | invalidDigit
  | tooLarge
  deriving DecidableEq

/-- The message of a fault. -/
def NaturalFault.message : NaturalFault → String
  | .empty => "cannot parse integer from empty string"
  | .invalidDigit => "invalid digit found in string"
  | .tooLarge => "number too large to fit in target type"

/-- The value of a digit or letter in bases up to 36. -/
def digitValue? (character : Char) : Option Nat :=
  if '0' ≤ character ∧ character ≤ '9' then some (character.toNat - '0'.toNat)
  else if 'a' ≤ character ∧ character ≤ 'z' then some (character.toNat - 'a'.toNat + 10)
  else if 'A' ≤ character ∧ character ≤ 'Z' then some (character.toNat - 'A'.toNat + 10)
  else none

/-- The value of a digit of the base. -/
def baseDigit? (base : Nat) (character : Char) : Option Nat :=
  (digitValue? character).filter fun digit => digit < base

/-- Appends digits to a number of 64 bits. -/
def appendDigits (base : Nat) (total : Nat) : List Char → Except NaturalFault Nat
  | [] => .ok total
  | character :: rest =>
    match baseDigit? base character with
    | none => .error .invalidDigit
    | some digit =>
      if total * base + digit < UInt64.size then appendDigits base (total * base + digit) rest
      else .error .tooLarge

/-- Reads a natural number of 64 bits. -/
def readWord (base : Nat) (text : List Char) : Except NaturalFault UInt64 :=
  match text with
  | [] => .error .empty
  | ['+'] => .error .invalidDigit
  | '+' :: digits => (appendDigits base 0 digits).map UInt64.ofNat
  | digits => (appendDigits base 0 digits).map UInt64.ofNat

/-- The digits of a base without any sign, as a number of any size. -/
def readDigits? (base : Nat) (digits : List Char) : Option Nat :=
  match digits with
  | [] => none
  | digits => (digits.mapM (baseDigit? base)).map fun values =>
    values.foldl (fun total digit => total * base + digit) 0

end FlowGraph.Text
