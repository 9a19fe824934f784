/-
This file reads typed contents out of documents. A decoder answers with the content or, without
naming a reason, with nothing. Lists and records may be nested at most 127 deep in whatever is
looked at; what nobody asks for may be nested deeper.

A record with known fields may be written by name or as the list of its fields in order. By
name, a known field may stand once, unknown fields are passed over, and a field that may be
null may also be absent. In a list no field may be missing, except at the end those that have
a default.
-/

import FlowGraph.Json.Document

namespace FlowGraph.Json

/-- Reads a content at a place that allows the given depth of further nesting. -/
abbrev Decoder (Content : Type) := Nat → Document → Option Content

namespace Decoder

/-- The depth of nesting that a whole text allows. -/
def nestingLimit : Nat := 127

/-- Reads a content from a text. -/
def read {Content : Type} (decoder : Decoder Content) (text : String) : Option Content :=
  (Document.read? text).bind (decoder nestingLimit)

/-- Reads what is inside a list or record, which takes one level of nesting. -/
def inside {Content : Type} (depth : Nat) (next : Nat → Option Content) : Option Content :=
  match depth with
  | 0 => none
  | depth + 1 => next depth

/-- A content that may be null. -/
def nullable {Content : Type} (decoder : Decoder Content) : Decoder (Option Content)
  | _, .null => some none
  | depth, document => (decoder depth document).map some

/-- A text. -/
def text : Decoder String
  | _, .text units => TextUnit.text? units
  | _, _ => none

/-- A truth value. -/
def boolean : Decoder Bool
  | _, .boolean truth => some truth
  | _, _ => none

/-- An integer between two bounds, both allowed. -/
def integer (least greatest : Int) : Decoder Int
  | _, .numeral numeral =>
    match numeral.number? with
    | some (.integer value) => if least ≤ value ∧ value ≤ greatest then some value else none
    | _ => none
  | _, _ => none

/-- A natural number of at most the given size. -/
def natural (greatest : Nat) : Decoder Nat := fun depth document =>
  (integer 0 greatest depth document).map Int.toNat

/-- A natural number of 64 bits. -/
def word : Decoder UInt64 := fun depth document =>
  (natural (UInt64.size - 1) depth document).map UInt64.ofNat

/-- A list of contents. -/
def list {Content : Type} (decoder : Decoder Content) : Decoder (List Content)
  | depth, .list items => inside depth fun depth => items.mapM (decoder depth)
  | _, _ => none

/-- The fields of a record in order, each name with its content. -/
def fields {Content : Type} (decoder : Decoder Content) : Decoder (List (String × Content))
  | depth, .record fields =>
    inside depth fun depth => fields.mapM fun field => do
      let name ← TextUnit.text? field.1
      let content ← decoder depth field.2
      return (name, content)
  | _, _ => none

/-- A number written as the name of a field: plain digits without a leading zero. -/
def wordName? (units : List TextUnit) : Option UInt64 := do
  let marks ← units.mapM fun
    | .plain character => some character
    | .code _ => none
  let numeral ← Numeral.ofMarks? marks
  word 0 (.numeral numeral)

/-- The fields of a record whose names are numbers. -/
def numberedFields {Content : Type} (decoder : Decoder Content) :
    Decoder (List (UInt64 × Content))
  | depth, .record fields =>
    inside depth fun depth => fields.mapM fun field => do
      let name ← wordName? field.1
      let content ← decoder depth field.2
      return (name, content)
  | _, _ => none

mutual

/-- Any value. Of fields with the same name the last one counts. -/
def value : Decoder Value
  | _, .null => some .null
  | _, .boolean truth => some (.boolean truth)
  | _, .numeral numeral => numeral.number?.map .number
  | _, .text units => (TextUnit.text? units).map .text
  | depth, .list items => inside depth fun depth => (valueItems depth items).map .list
  | depth, .record fields => inside depth fun depth =>
    (valueFields depth fields).map fun fields => .record (Value.canonicalFields fields)

/-- Any values of a list. -/
def valueItems (depth : Nat) : List Document → Option (List Value)
  | [] => some []
  | item :: rest => do
    let first ← value depth item
    let others ← valueItems depth rest
    return first :: others

/-- Any values of a record. -/
def valueFields (depth : Nat) :
    List (List TextUnit × Document) → Option (List (String × Value))
  | [] => some []
  | (units, document) :: rest => do
    let name ← TextUnit.text? units
    let first ← value depth document
    let others ← valueFields depth rest
    return (name, first) :: others

end

/-- A table of free-form values. -/
def metadata : Decoder Metadata := fun depth document =>
  (fields value depth document).map Metadata.ofFields

/-- The contents of a record with known fields: the documents found under their names, and
whether they were written as a list. -/
structure Known where
  depth : Nat
  positional : Bool
  found : List (String × Document)

/-- Keeps the known fields that are written by name, refusing a second one of the same name. -/
def named (names : List String) (found : List (String × Document)) :
    List (List TextUnit × Document) → Option (List (String × Document))
  | [] => some found
  | (units, document) :: rest => do
    let name ← TextUnit.text? units
    if name ∈ names then
      if (found.lookup name).isSome then none
      else named names ((name, document) :: found) rest
    else named names found rest

/-- Reads a record with known fields. -/
def known {Content : Type} (names : List String) (build : Known → Option Content) :
    Decoder Content
  | depth, .record fields => inside depth fun depth => do
    let found ← named names [] fields
    build ⟨depth, false, found⟩
  | depth, .list items => inside depth fun depth =>
    if items.length ≤ names.length then build ⟨depth, true, names.zip items⟩ else none
  | _, _ => none

namespace Known

/-- A field that has to be there. -/
def required {Content : Type} (record : Known) (name : String) (decoder : Decoder Content) :
    Option Content :=
  (record.found.lookup name).bind (decoder record.depth)

/-- A field that may be null, and absent where fields have names. -/
def optional {Content : Type} (record : Known) (name : String) (decoder : Decoder Content) :
    Option (Option Content) :=
  match record.found.lookup name with
  | some document => nullable decoder record.depth document
  | none => if record.positional then none else some none

/-- A field that may be absent but not null. -/
def defaulted {Content : Type} (record : Known) (name : String) (decoder : Decoder Content)
    (absent : Content) : Option Content :=
  match record.found.lookup name with
  | some document => decoder record.depth document
  | none => some absent

end Known

/-- One of several named alternatives: the name alone, or a record that holds it with null. -/
def alternative {Content : Type} (choose : String → Option Content) : Decoder Content
  | _, .text units => (TextUnit.text? units).bind choose
  | depth, .record [(units, .null)] => inside depth fun _ => (TextUnit.text? units).bind choose
  | _, _ => none

end Decoder

end FlowGraph.Json
