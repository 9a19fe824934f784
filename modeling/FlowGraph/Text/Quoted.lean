/-
This file writes text between quotation marks, as messages and generated code show it. The
quotation mark and the backslash are escaped, the usual controls have letters of their own,
and any other character that cannot be shown on its own is written by its code point.
-/

import FlowGraph.Text.Unprintable

namespace FlowGraph.Text

/-- A natural number in hexadecimal, in small digits. -/
def hexadecimal (value : Nat) : String := String.ofList (Nat.toDigits 16 value)

/-- An address or size as messages show it. -/
def hexAddress (value : UInt64) : String := "0x" ++ hexadecimal value.toNat

/-- One character as it is written between quotation marks. -/
def quotedChar (character : Char) : String :=
  if character = '"' then "\\\""
  else if character = '\\' then "\\\\"
  else if character = '\t' then "\\t"
  else if character = '\n' then "\\n"
  else if character = '\r' then "\\r"
  else if character = '\x00' then "\\0"
  else if 0x20 ≤ character.toNat ∧ character.toNat < 0x7f then character.toString
  else if isUnprintable character then "\\u\x7b" ++ hexadecimal character.toNat ++ "\x7d"
  else character.toString

/-- The text between quotation marks. -/
def quoted (text : String) : String :=
  "\"" ++ String.join (text.toList.map quotedChar) ++ "\""

end FlowGraph.Text
