/-
This file defines addresses and the typed edges between basic blocks. Addresses are machine
words: moving one wraps around. Edges are ordered by source, then target, then kind, with
normal edges before calls.
-/

import Std.Data.ExtTreeMap
import FlowGraph.Text.Quoted

namespace FlowGraph

/-- The address of an instruction, a basic block or a function. -/
abbrev Address := UInt64

/-- A table by address, in ascending order. -/
abbrev AddressMap (Content : Type) := Std.ExtTreeMap Address Content

namespace AddressMap

/-- The contents in ascending order of their addresses. -/
def contents {Content : Type} (table : AddressMap Content) : List Content :=
  table.toList.map fun entry => entry.2

/-- The addresses in ascending order. -/
def addresses {Content : Type} (table : AddressMap Content) : List Address :=
  table.toList.map fun entry => entry.1

/-- The rank of every address among all of them. -/
def ranks {Content : Type} (table : AddressMap Content) : AddressMap Nat :=
  Std.ExtTreeMap.ofList table.addresses.zipIdx

end AddressMap

/-- How control passes along an edge. -/
inductive EdgeKind where
  | normal
  | functionCall
  deriving DecidableEq, Inhabited

namespace EdgeKind

/-- The code of a kind in matrices. -/
def code : EdgeKind → Nat
  | .normal => 1
  | .functionCall => 2

/-- The kind of a code. -/
def ofCode? : Nat → Option EdgeKind
  | 1 => some .normal
  | 2 => some .functionCall
  | _ => none

/-- The name of a kind in files. -/
def name : EdgeKind → String
  | .normal => "normal"
  | .functionCall => "function_call"

/-- The kind of a name. -/
def ofName? (name : String) : Option EdgeKind :=
  if name = "normal" then some .normal
  else if name = "function_call" then some .functionCall
  else none

theorem ofCode?_code (kind : EdgeKind) : ofCode? kind.code = some kind := by
  cases kind <;> rfl

theorem ofName?_name (kind : EdgeKind) : ofName? kind.name = some kind := by
  cases kind <;> simp [ofName?, name]

end EdgeKind

/-- An edge from one block to another. -/
structure Edge where
  source : Address
  target : Address
  kind : EdgeKind
  deriving DecidableEq, Inhabited

namespace Edge

/-- Whether the edge is a call. -/
def isCall (edge : Edge) : Bool := edge.kind == .functionCall

/-- The edge with both ends moved, wrapping around. -/
def shifted (edge : Edge) (delta : Address) : Edge :=
  ⟨edge.source + delta, edge.target + delta, edge.kind⟩

/-- Whether the first edge comes no later than the second one. -/
def precedes (left right : Edge) : Bool :=
  if left.source ≠ right.source then left.source < right.source
  else if left.target ≠ right.target then left.target < right.target
  else left.kind.code ≤ right.kind.code

/-- The edges in ascending order, repetitions kept. -/
def sort (edges : List Edge) : List Edge := edges.mergeSort precedes

/-- The edge as messages show it. -/
def describe (edge : Edge) : String :=
  Text.hexAddress edge.source ++ " -> " ++ Text.hexAddress edge.target ++
    " (" ++ edge.kind.name ++ ")"

end Edge

end FlowGraph
