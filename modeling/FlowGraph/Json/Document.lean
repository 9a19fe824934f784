/-
This file reads tokens into a document: the text as it is written, with numbers as numerals,
texts as units and records with all their fields in order. What a document means depends on
what is expected of it, so a repeated field, a number that is too large or an escape that
names no character is only judged where it is asked for.
-/

import FlowGraph.Json.Token
import FlowGraph.Json.Numeral

namespace FlowGraph.Json

/-- JSON as it is written. -/
inductive Document where
  | null
  | boolean (truth : Bool)
  | numeral (numeral : Numeral)
  | text (units : List TextUnit)
  | list (items : List Document)
  | record (fields : List (List TextUnit × Document))

/-- A list or record that is still open; last items first. -/
inductive Frame where
  | list (items : List Document)
  | record (fields : List (List TextUnit × Document))
  | field (fields : List (List TextUnit × Document)) (name : List TextUnit)

/-- What may come next. -/
inductive Expected where
  | value
  | valueOrEnd
  | name
  | nameOrEnd
  | colon
  | commaOrEnd
  | nothing
  deriving DecidableEq

/-- The open lists and records, innermost first, and the document once it is complete. -/
structure Reading where
  frames : List Frame
  expected : Expected
  complete : Option Document

namespace Reading

/-- The start of a text. -/
def start : Reading := ⟨[], .value, none⟩

/-- A value has been read. -/
def give (reading : Reading) (document : Document) : Option Reading :=
  match reading.frames with
  | [] => some ⟨[], .nothing, some document⟩
  | .list items :: outer => some ⟨.list (document :: items) :: outer, .commaOrEnd, none⟩
  | .field fields name :: outer =>
    some ⟨.record ((name, document) :: fields) :: outer, .commaOrEnd, none⟩
  | .record _ :: _ => none

/-- A word as a document. -/
def constant? (letters : List Char) : Option Document :=
  if letters = "null".toList then some .null
  else if letters = "true".toList then some (.boolean true)
  else if letters = "false".toList then some (.boolean false)
  else none

/-- Reads a token where a value is expected. -/
def takeValue (reading : Reading) : Token → Option Reading
  | .word letters => (constant? letters).bind reading.give
  | .numeral marks => (Numeral.ofMarks? marks).bind fun numeral => reading.give (.numeral numeral)
  | .text units => reading.give (.text units)
  | .openList => some ⟨.list [] :: reading.frames, .valueOrEnd, none⟩
  | .openRecord => some ⟨.record [] :: reading.frames, .nameOrEnd, none⟩
  | _ => none

/-- Reads the end of the innermost list or record. -/
def takeEnd (reading : Reading) (token : Token) : Option Reading :=
  match token, reading.frames with
  | .closeList, .list items :: outer =>
    give { reading with frames := outer } (.list items.reverse)
  | .closeRecord, .record fields :: outer =>
    give { reading with frames := outer } (.record fields.reverse)
  | _, _ => none

/-- Reads the name of a field. -/
def takeName (reading : Reading) (token : Token) : Option Reading :=
  match token, reading.frames with
  | .text units, .record fields :: outer => some ⟨.field fields units :: outer, .colon, none⟩
  | _, _ => none

/-- Reads one token. -/
def step (reading : Reading) (token : Token) : Option Reading :=
  match reading.expected with
  | .value => reading.takeValue token
  | .valueOrEnd => if token = .closeList then reading.takeEnd token else reading.takeValue token
  | .name => reading.takeName token
  | .nameOrEnd => if token = .closeRecord then reading.takeEnd token else reading.takeName token
  | .colon => if token = .colon then some { reading with expected := .value } else none
  | .commaOrEnd =>
    if token = .comma then
      match reading.frames with
      | .list _ :: _ => some { reading with expected := .value }
      | .record _ :: _ => some { reading with expected := .name }
      | _ => none
    else reading.takeEnd token
  | .nothing => none

end Reading

/-- Reads a text that holds one document and nothing else. -/
def Document.read? (text : String) : Option Document := do
  let tokens ← Token.scan? text
  let reading ← tokens.foldlM Reading.step Reading.start
  reading.complete

end FlowGraph.Json
