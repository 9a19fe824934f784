/-
This file defines the flags of a block in a compact graph: five facts in the low bits of a
byte. The other bits have no meaning and are kept as they are.
-/

import FlowGraph.Graph.View

namespace FlowGraph

/-- A byte of flags. -/
structure BlockFlags where
  bits : UInt8
  deriving DecidableEq

/-- A fact about a block, by its bit. -/
inductive BlockFact where
  /-- Some edge that leaves the block is a call. -/
  | call
  /-- The block is where its function begins. -/
  | entry
  /-- The block belongs to an external function. -/
  | external
  /-- A normal edge leads into another function. -/
  | jump
  /-- A separator stands between the calls and the other edges. -/
  | multi
  deriving DecidableEq

namespace BlockFact

/-- The position of the bit. -/
def position : BlockFact → Nat
  | .call => 0
  | .entry => 1
  | .external => 2
  | .jump => 3
  | .multi => 4

end BlockFact

namespace BlockFlags

/-- Whether a fact holds. -/
def has (flags : BlockFlags) (fact : BlockFact) : Bool := flags.bits.toNat.testBit fact.position

/-- The bit of a fact, if it holds. -/
def bit (fact : BlockFact) (holds : Bool) : Nat := if holds then 1 <<< fact.position else 0

/-- The flags with exactly these facts. -/
def ofFacts (call entry external jump multi : Bool) : BlockFlags :=
  ⟨UInt8.ofNat (bit .call call + bit .entry entry + bit .external external + bit .jump jump +
    bit .multi multi)⟩

/-- Whether a block belongs to an external function. -/
def inExternal (graph : Graph) (block : Block) : Bool :=
  match block.parent.bind fun address => graph.functions[address]? with
  | some function => function.isExternal
  | none => false

/-- The flags of a block of a graph; whether a separator is needed is known elsewhere. -/
def ofBlock (graph : Graph) (block : Block) (multi : Bool) : BlockFlags :=
  ofFacts block.hasCall block.isEntry (inExternal graph block) (graph.jumpsAway block) multi

end BlockFlags

end FlowGraph
