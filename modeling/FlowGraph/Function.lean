/-
This file defines functions: as they are described before they become part of a graph, with
their blocks, and as a graph holds them, with the addresses of their blocks.
-/

import FlowGraph.Block

namespace FlowGraph

/-- The name of a function without a symbol. -/
def unnamedFunctionName (address : Address) : String :=
  "__unnamed_func__" ++ Text.hexadecimal address.toNat

/-- A function that is not part of a graph yet. -/
structure FunctionDraft where
  address : Option Address
  name : Option String
  isExternal : Bool
  metadata : Metadata
  blocks : List Block

namespace FunctionDraft

/-- The draft without any contents. -/
def empty : FunctionDraft := ⟨none, none, false, ∅, []⟩

instance : Inhabited FunctionDraft := ⟨empty⟩

/-- The address of the function: the one it was given, or its lowest block address. -/
def resolvedAddress? (draft : FunctionDraft) : Option Address :=
  match draft.address with
  | some address => some address
  | none => (draft.blocks.map Block.address).min?

/-- The number of lines in all blocks. -/
def lineCount (draft : FunctionDraft) : Nat := (draft.blocks.flatMap Block.lines).length

/-- Whether two drafts describe the same function, where blocks are compared by a hash; the order of
blocks does not matter. -/
def sameBy {Hash : Type} [DecidableEq Hash] (hash : Block.Key → Hash)
    (left right : FunctionDraft) : Bool :=
  left.resolvedAddress? == right.resolvedAddress? && left.name == right.name &&
    left.isExternal == right.isExternal && left.metadata.same right.metadata &&
    Block.sameBlocksBy hash left.blocks right.blocks

/-- Whether two drafts describe the same function; the order of blocks does not matter. -/
def same (left right : FunctionDraft) : Bool := sameBy id left right

end FunctionDraft

/-- A function of a graph. Its blocks stand in the order in which they were added. -/
structure Function where
  address : Address
  name : Option String
  isExternal : Bool
  metadata : Metadata
  blocks : List Address

namespace Function

/-- The symbol of the function; the empty name is none. -/
def symbol? (function : Function) : Option String :=
  function.name.filter fun name => !name.isEmpty

/-- The symbol, or a name made from the address. -/
def displayName (function : Function) : String :=
  function.symbol?.getD (unnamedFunctionName function.address)

end Function

end FlowGraph
