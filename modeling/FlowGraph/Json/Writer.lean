/-
This file writes JSON values as text without any spaces. Characters beyond ASCII are written
as they are. A double is written with the fewest digits that identify it: positionally from
`0.00001` up to below `10 ^ 16`, always with a point, and otherwise with an exponent, which
has a sign in both directions.
-/

import FlowGraph.Json.Value
import FlowGraph.Binary64.Shortest
import FlowGraph.Text.Quoted

namespace FlowGraph

namespace Binary64

/-- The least decimal exponent that is written positionally. -/
def leastPositional : Int := -5

/-- The greatest decimal exponent that is written positionally. -/
def greatestPositional : Int := 15

/-- Digits and a power of ten as text. -/
def layout (digits : Nat) (power : Int) : String :=
  let figures := Nat.toDigits 10 digits
  let exponent := figures.length - 1 + power
  if leastPositional ≤ exponent ∧ exponent ≤ greatestPositional then
    if exponent < 0 then
      "0." ++ String.ofList (List.replicate (-exponent - 1).toNat '0' ++ figures)
    else
      let whole := exponent.toNat + 1
      let padded := figures ++ List.replicate (whole - figures.length) '0'
      let fraction := if padded.length ≤ whole then ['0'] else padded.drop whole
      String.ofList (padded.take whole ++ '.' :: fraction)
  else
    let mantissa := match figures with
      | first :: second :: rest => first :: '.' :: second :: rest
      | short => short
    let sign := if exponent < 0 then "e-" else "e+"
    String.ofList mantissa ++ sign ++ toString exponent.natAbs

/-- A double as JSON text. -/
def toText (number : Binary64) : String :=
  let magnitude :=
    if number.word = 0 then "0.0"
    else
      let (digits, power) := shortest number.word
      layout digits power
  if number.negative then "-" ++ magnitude else magnitude

end Binary64

namespace Json

/-- A four-digit hexadecimal escape. -/
def codeEscape (code : Nat) : String :=
  let digits := Nat.toDigits 16 code
  "\\u" ++ String.ofList (List.replicate (4 - digits.length) '0' ++ digits)

/-- One character inside a JSON text. -/
def escapedChar (character : Char) : String :=
  if character = '"' then "\\\""
  else if character = '\\' then "\\\\"
  else if character = '\x08' then "\\b"
  else if character = '\t' then "\\t"
  else if character = '\n' then "\\n"
  else if character = '\x0c' then "\\f"
  else if character = '\r' then "\\r"
  else if character.toNat < 0x20 then codeEscape character.toNat
  else character.toString

/-- A text between its quotation marks. -/
def escaped (content : String) : String :=
  "\"" ++ String.join (content.toList.map escapedChar) ++ "\""

/-- A number as text. -/
def Number.toText : Number → String
  | .integer value => toString value
  | .real value => value.toText

namespace Value

mutual

/-- The value as text. -/
def toText : Value → String
  | .null => "null"
  | .boolean true => "true"
  | .boolean false => "false"
  | .number content => content.toText
  | .text content => escaped content
  | .list items => "[" ++ String.intercalate "," (itemTexts items) ++ "]"
  | .record fields => "\x7b" ++ String.intercalate "," (fieldTexts fields) ++ "\x7d"

/-- The items as texts. -/
def itemTexts : List Value → List String
  | [] => []
  | item :: rest => toText item :: itemTexts rest

/-- The fields as texts. -/
def fieldTexts : List (String × Value) → List String
  | [] => []
  | (name, value) :: rest => (escaped name ++ ":" ++ toText value) :: fieldTexts rest

end

end Value

end Json

end FlowGraph
