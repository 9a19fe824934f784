/-
This file turns text to small letters. Every capital letter has one small letter, except two:
the dotted capital I keeps its dot as a separate character, and a capital sigma that ends a
word becomes the final form. A sigma ends a word when a letter with a case comes before it
and none comes after it, characters that do not separate letters being skipped on both sides.
-/

import FlowGraph.Text.CaseTable

namespace FlowGraph.Text

/-- The small letter of a run's capital. -/
def CaseRun.small? (run : CaseRun) (code : Nat) : Option Nat :=
  if run.first ≤ code ∧ code ≤ run.last ∧ (code - run.first) % run.stride = 0 then
    some (run.image + (code - run.first))
  else none

/-- The small letter of a character that has just one, and the character itself otherwise. -/
def smallLetter (character : Char) : Char :=
  match capitalRuns.findSome? fun run => run.small? character.toNat with
  | some code => Char.ofNat code
  | none => character

/-- The first character that separates, if it has a case. -/
def meetsCased (text : List Char) : Bool :=
  match text.dropWhile isCaseIgnorable with
  | [] => false
  | character :: _ => isCased character

/-- The small letters of one character with the text before it, nearest first, and after it. -/
def lowercaseAt (before : List Char) (character : Char) (after : List Char) : List Char :=
  if character = 'Σ' then
    if meetsCased before && !meetsCased after then ['ς'] else ['σ']
  else if character = 'İ' then ['i', '\u0307']
  else if character.toNat < 0x80 then [character.toLower]
  else [smallLetter character]

/-- Turns a text to small letters, given the text before it, nearest first. -/
def lowercaseFrom (before : List Char) : List Char → List Char
  | [] => []
  | character :: after =>
    lowercaseAt before character after ++ lowercaseFrom (character :: before) after

/-- The text in small letters. -/
def lowercase (text : List Char) : List Char := lowercaseFrom [] text

end FlowGraph.Text
