/-
This file splits JSON text into tokens, one character at a time. Between tokens only spaces,
tabs and line ends may stand. A numeral or a word reaches as far as its characters do and is
judged by the reader of documents. Inside a text an escape by number is kept as the code unit
it names, because two of them may stand for one character and one alone for none.
-/

import FlowGraph.Json.Value

namespace FlowGraph.Json

/-- A piece of a text: a character, or a code unit given by number. -/
inductive TextUnit where
  | plain (character : Char)
  | code (code : Nat)
  deriving DecidableEq

namespace TextUnit

/-- The characters of a text. A code unit from the first half of the surrogates has to be
followed by one from the second half, and the second half may not occur otherwise. -/
def characters? : List TextUnit → Option (List Char)
  | [] => some []
  | .plain character :: rest => (characters? rest).map (character :: ·)
  | .code high :: .code low :: rest =>
    if 0xd800 ≤ high ∧ high ≤ 0xdbff then
      if 0xdc00 ≤ low ∧ low ≤ 0xdfff then
        (characters? rest).map
          (Char.ofNat (0x10000 + (high - 0xd800) * 0x400 + (low - 0xdc00)) :: ·)
      else none
    else if 0xdc00 ≤ high ∧ high ≤ 0xdfff then none
    else (characters? (.code low :: rest)).map (Char.ofNat high :: ·)
  | .code unit :: rest =>
    if 0xd800 ≤ unit ∧ unit ≤ 0xdfff then none
    else (characters? rest).map (Char.ofNat unit :: ·)

/-- The text that units denote. -/
def text? (units : List TextUnit) : Option String := (characters? units).map String.ofList

end TextUnit

/-- A token of JSON text. -/
inductive Token where
  | openList
  | closeList
  | openRecord
  | closeRecord
  | comma
  | colon
  | word (letters : List Char)
  | numeral (marks : List Char)
  | text (units : List TextUnit)
  deriving DecidableEq

/-- What has been read of the token that is not finished yet; last characters first. -/
inductive Partial where
  | nothing
  | word (letters : List Char)
  | numeral (marks : List Char)
  | text (units : List TextUnit)
  | escape (units : List TextUnit)
  | code (units : List TextUnit) (missing : Nat) (value : Nat)

/-- The finished tokens, last first, and the unfinished one. -/
structure Scanner where
  finished : List Token
  current : Partial

namespace Scanner

/-- A character that may stand in a numeral. -/
def isNumeralMark (character : Char) : Bool :=
  character.isDigit || character == '-' || character == '+' || character == '.' ||
    character == 'e' || character == 'E'

/-- The value of a hexadecimal digit. -/
def hexDigit? (character : Char) : Option Nat :=
  if '0' ≤ character ∧ character ≤ '9' then some (character.toNat - '0'.toNat)
  else if 'a' ≤ character ∧ character ≤ 'f' then some (character.toNat - 'a'.toNat + 10)
  else if 'A' ≤ character ∧ character ≤ 'F' then some (character.toNat - 'A'.toNat + 10)
  else none

/-- The character that a letter after a backslash stands for. -/
def escapedChar? : Char → Option Char
  | '"' => some '"'
  | '\\' => some '\\'
  | '/' => some '/'
  | 'b' => some '\x08'
  | 'f' => some '\x0c'
  | 'n' => some '\n'
  | 'r' => some '\r'
  | 't' => some '\t'
  | _ => none

/-- Begins a token, or is a token, or separates tokens. -/
def begin (finished : List Token) (character : Char) : Option Scanner :=
  match character with
  | ' ' | '\t' | '\n' | '\r' => some ⟨finished, .nothing⟩
  | '[' => some ⟨.openList :: finished, .nothing⟩
  | ']' => some ⟨.closeList :: finished, .nothing⟩
  | '\x7b' => some ⟨.openRecord :: finished, .nothing⟩
  | '\x7d' => some ⟨.closeRecord :: finished, .nothing⟩
  | ',' => some ⟨.comma :: finished, .nothing⟩
  | ':' => some ⟨.colon :: finished, .nothing⟩
  | '"' => some ⟨finished, .text []⟩
  | other =>
    if other.isDigit || other == '-' then some ⟨finished, .numeral [other]⟩
    else if other.isLower then some ⟨finished, .word [other]⟩
    else none

/-- Reads one character. -/
def step (scanner : Scanner) (character : Char) : Option Scanner :=
  let finished := scanner.finished
  match scanner.current with
  | .nothing => begin finished character
  | .word letters =>
    if character.isLower then some ⟨finished, .word (character :: letters)⟩
    else begin (.word letters.reverse :: finished) character
  | .numeral marks =>
    if isNumeralMark character then some ⟨finished, .numeral (character :: marks)⟩
    else begin (.numeral marks.reverse :: finished) character
  | .text units =>
    if character = '"' then some ⟨.text units.reverse :: finished, .nothing⟩
    else if character = '\\' then some ⟨finished, .escape units⟩
    else if character.toNat < 0x20 then none
    else some ⟨finished, .text (.plain character :: units)⟩
  | .escape units =>
    if character = 'u' then some ⟨finished, .code units 4 0⟩
    else (escapedChar? character).map fun meant => ⟨finished, .text (.plain meant :: units)⟩
  | .code units missing value =>
    (hexDigit? character).map fun digit =>
      let value := value * 16 + digit
      if missing ≤ 1 then ⟨finished, .text (.code value :: units)⟩
      else ⟨finished, .code units (missing - 1) value⟩

/-- The tokens once the text has ended; a text that is still open has none. -/
def finish (scanner : Scanner) : Option (List Token) :=
  match scanner.current with
  | .nothing => some scanner.finished.reverse
  | .word letters => some (.word letters.reverse :: scanner.finished).reverse
  | .numeral marks => some (.numeral marks.reverse :: scanner.finished).reverse
  | _ => none

end Scanner

/-- The tokens of a text. -/
def Token.scan? (text : String) : Option (List Token) :=
  (text.toList.foldlM Scanner.step ⟨[], .nothing⟩).bind Scanner.finish

end FlowGraph.Json
