/-
This file defines run-length lists of metadata. Most functions and blocks have no metadata, so
consecutive empty tables are kept as one count. A list that was written elsewhere may also
hold counts of zero, adjacent counts and empty tables; it is read all the same. It may even stand
for more tables than memory can hold or a machine word can count, and then not everything that
may be asked of it has an answer. What counts is the size of a list for which there are addresses:
up to there, memory is taken to be large enough.
-/

import FlowGraph.Json.Decoder

namespace FlowGraph

/-- A number of empty tables, or one table. -/
inductive RunEntry where
  | run (count : Nat)
  | table (metadata : Metadata)

namespace RunEntry

/-- The number of tables an entry stands for. -/
def span : RunEntry → Nat
  | .run count => count
  | .table _ => 1

/-- The table that an entry stands for, once or several times. -/
def content : RunEntry → Metadata
  | .run _ => ∅
  | .table metadata => metadata

/-- The tables an entry stands for. -/
def expand : RunEntry → List Metadata
  | .run count => List.replicate count ∅
  | .table metadata => [metadata]

/-- Whether two entries are equal. -/
def same : RunEntry → RunEntry → Bool
  | .run left, .run right => left == right
  | .table left, .table right => left.same right
  | _, _ => false

/-- An entry as JSON: a number or a record. -/
def toJson : RunEntry → Json.Value
  | .run count => .natural count
  | .table metadata => metadata.toJson

/-- Reads an entry from JSON. -/
def decode : Json.Decoder RunEntry := fun depth document =>
  match document with
  | .record _ => (Json.Decoder.metadata depth document).map .table
  | _ => (Json.Decoder.natural (UInt64.size - 1) depth document).map .run

end RunEntry

/-- What cannot be done with a list that stands for too many tables: a position in it is no
machine word, or memory has no room for all of them. Nothing goes on from there. -/
inductive RunFault where
  | overflow
  | capacity
  deriving DecidableEq

namespace RunFault

/-- The message of a fault. -/
def message : RunFault → String
  | .overflow => "attempt to add with overflow"
  | .capacity => "capacity overflow"

end RunFault

/-- A run-length list of metadata. -/
abbrev RunLength := List RunEntry

namespace RunLength

/-- Puts a table in front of a list that is already encoded. -/
def prepend (metadata : Metadata) (encoded : RunLength) : RunLength :=
  if metadata.isEmpty then
    match encoded with
    | .run count :: rest => .run (count + 1) :: rest
    | other => .run 1 :: other
  else .table metadata :: encoded

/-- The encoding of a list: no two counts side by side, and no empty table. -/
def encode (tables : List Metadata) : RunLength := tables.foldr prepend []

/-- The number of tables a list stands for. -/
def tableCount (encoded : RunLength) : Nat :=
  encoded.foldr (fun entry count => entry.span + count) 0

/-- The tables a list stands for. -/
def expansion (encoded : RunLength) : List Metadata := encoded.flatMap RunEntry.expand

/-- Goes on by a number of tables. Positions are machine words. -/
def advance (start span : Nat) : Except RunFault Nat :=
  if start + span < UInt64.size then .ok (start + span) else .error .overflow

/-- Counts the tables of a list. -/
def count (encoded : RunLength) : Except RunFault Nat :=
  encoded.foldlM (fun start entry => advance start entry.span) 0

/-- How many elements of so many bytes memory can hold in one list, which takes less than half of
the addresses. -/
def roomFor (bytes : Nat) : Nat := (UInt64.size / 2 - 1) / bytes

/-- How many tables memory can hold in one list. A table takes 24 bytes in it. -/
def greatestCount : Nat := roomFor 24

/-- Expands a list. Room for all of its tables is asked for before the first one is put there. -/
def decode (encoded : RunLength) : Except RunFault (List Metadata) := do
  if (← encoded.count) ≤ greatestCount then return encoded.expansion
  else throw .capacity

/-- The table at a position of a list that begins at `start`, found without expanding it. -/
def tableFrom (start : Nat) : RunLength → Nat → Except RunFault (Option Metadata)
  | [], _ => return none
  | entry :: rest, position => do
    let stop ← advance start entry.span
    if position < stop then return some entry.content else tableFrom stop rest position

/-- The table at a position. -/
def tableAt (encoded : RunLength) (position : Nat) : Except RunFault (Option Metadata) :=
  tableFrom 0 encoded position

/-- Whether two lists have equal entries. -/
def same (left right : RunLength) : Bool :=
  List.length left == List.length right && (left.zip right).all fun pair => pair.1.same pair.2

/-- A list as JSON. -/
def toJson (encoded : RunLength) : Json.Value := .list (encoded.map RunEntry.toJson)

/-- Reads a list from JSON. -/
def ofJson : Json.Decoder RunLength := Json.Decoder.list RunEntry.decode

end RunLength

end FlowGraph
