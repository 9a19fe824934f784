/-
This file defines control flow graphs and how they grow. A graph holds functions and blocks by
address. Functions are added in batches: a batch is checked as a whole before anything changes,
and after it was added every edge that some block lists and whose two ends are in the graph is
listed by both of them. Edges with an end outside the graph wait on the block that lists them.

A graph may carry an index from the addresses of lines to the blocks that hold them. It is
built when it is first needed and then follows every batch.
-/

import FlowGraph.Dictionary
import FlowGraph.Error
import FlowGraph.Function
import FlowGraph.Normalizer

namespace FlowGraph

/-- A control flow graph. The normalizer is the name of the one that the lines came from, and
the store receives the tokens of a normalization that is not given another one. -/
structure Graph where
  functions : AddressMap Function
  blocks : AddressMap Block
  normalizer : Option String
  tokens : Option TokenStore
  metadata : Metadata
  index : Option (AddressMap Address)

namespace Graph

/-- The graph without functions. -/
def empty : Graph := ⟨∅, ∅, none, none, ∅, none⟩

instance : Inhabited Graph := ⟨empty⟩

/-- The graph without functions, with metadata. -/
def withMetadata (metadata : Metadata) : Graph := { empty with metadata }

/-! ### Contents in address order -/

/-- The functions in ascending order of their addresses. -/
def functionList (graph : Graph) : List Function := graph.functions.contents

/-- The blocks in ascending order of their addresses. -/
def blockList (graph : Graph) : List Block := graph.blocks.contents

/-- The blocks of a function in its own order. -/
def blocksOf (graph : Graph) (function : Function) : List Block :=
  function.blocks.filterMap fun address => graph.blocks[address]?

/-- Whether both ends of an edge are in the graph. -/
def spans (graph : Graph) (edge : Edge) : Bool :=
  graph.blocks.contains edge.source && graph.blocks.contains edge.target

/-- Every listed edge, block by block, those that leave a block before those that enter it. -/
def listedEdges (graph : Graph) : List Edge :=
  graph.blockList.flatMap fun block => block.edgesOut ++ block.edgesIn

/-! ### The index of line addresses -/

/-- Adds a block to an index: its lines, and then its own address. -/
def indexBlock (index : AddressMap Address) (block : Block) : AddressMap Address :=
  (block.lineAddresses.foldl (fun table address => table.insert address block.address)
    index).insert block.address block.address

/-- The index of blocks, later blocks taking over addresses of earlier ones. -/
def indexOf (blocks : List Block) : AddressMap Address := blocks.foldl indexBlock ∅

/-- The graph with its index built. -/
def ensureIndex (graph : Graph) : Graph :=
  match graph.index with
  | some _ => graph
  | none => { graph with index := some (indexOf graph.blockList) }

/-- The graph as a copy has it, without an index. -/
def copy (graph : Graph) : Graph := { graph with index := none }

/-- The block that holds a line at an address, and the graph with its index built. -/
def blockContaining? (graph : Graph) (address : Address) : Option Block × Graph :=
  let indexed := graph.ensureIndex
  let owner := indexed.index.bind fun index => index[address]?
  (owner.bind fun owner => indexed.blocks[owner]?, indexed)

/-! ### Wiring -/

/-- Lists an edge on both of its ends if both are in the graph. -/
def connect (graph : Graph) (edge : Edge) : Graph :=
  if graph.spans edge then
    { graph with
      blocks := (graph.blocks.modify edge.source fun block => block.listOut edge).modify
        edge.target fun block => block.listIn edge }
  else graph

/-- Lists every edge that any block lists on both of its ends. -/
def wire (graph : Graph) : Graph := graph.listedEdges.foldl connect graph

/-! ### Adding functions -/

/-- The addresses that a batch has used up so far. -/
structure Taken where
  functions : Std.ExtTreeSet Address
  blocks : Std.ExtTreeSet Address

/-- The report of a collision. -/
def collision (override : Bool) (address : Address) (plain : Address → GraphError) : GraphError :=
  if override then .overrideUnsupported address else plain address

/-- Checks a block of a batch: its line addresses have to match its lines, and its address has
to be free. -/
def checkBlock (graph : Graph) (override : Bool) (taken : Std.ExtTreeSet Address)
    (block : Block) : Except GraphError (Std.ExtTreeSet Address) :=
  if block.hasLineAddresses ∧ block.lineAddresses.length ≠ block.lines.length then
    .error (.addressCountMismatch block.address block.lines.length block.lineAddresses.length)
  else if graph.blocks.contains block.address ∨ taken.contains block.address then
    .error (collision override block.address .duplicateBlock)
  else .ok (taken.insert block.address)

/-- Checks a function of a batch and its blocks, and returns its address. -/
def checkDraft (graph : Graph) (override : Bool) (taken : Taken) (draft : FunctionDraft) :
    Except GraphError (Address × Taken) :=
  match draft.resolvedAddress? with
  | none => .error (.missingFunctionAddress draft.name)
  | some address =>
    if graph.functions.contains address ∨ taken.functions.contains address then
      .error (collision override address .duplicateFunction)
    else
      (draft.blocks.foldlM (graph.checkBlock override) taken.blocks).map fun blocks =>
        (address, ⟨taken.functions.insert address, blocks⟩)

/-- Checks a batch and returns the addresses of its functions. -/
def checkBatch (graph : Graph) (override : Bool) (taken : Taken) :
    List FunctionDraft → Except GraphError (List Address)
  | [] => .ok []
  | draft :: rest => do
    let (address, taken) ← graph.checkDraft override taken draft
    let addresses ← graph.checkBatch override taken rest
    return address :: addresses

/-- Puts a function and its blocks into the graph, without wiring. -/
def place (graph : Graph) (address : Address) (draft : FunctionDraft) : Graph :=
  let blocks := draft.blocks.map fun block => { block with parent := some address }
  { graph with
    functions := graph.functions.insert address
      ⟨address, draft.name, draft.isExternal, draft.metadata, blocks.map Block.address⟩
    blocks := blocks.foldl (fun table block => table.insert block.address block) graph.blocks
    index := graph.index.map fun index => blocks.foldl indexBlock index }

/-- Adds a batch of functions and wires the graph. Colliding addresses are never replaced;
asking to override them only changes the report. -/
def addFunctions (graph : Graph) (drafts : List FunctionDraft) (override : Bool) :
    Except GraphError Graph := do
  let addresses ← graph.checkBatch override ⟨∅, ∅⟩ drafts
  let placed := (addresses.zip drafts).foldl (fun graph entry => graph.place entry.1 entry.2) graph
  return placed.wire

/-- Adds an edge between two blocks of the graph. -/
def addEdge (graph : Graph) (edge : Edge) : Except GraphError Graph :=
  if !graph.blocks.contains edge.target then .error (.blockNotFound edge.target)
  else if !graph.blocks.contains edge.source then .error (.blockNotFound edge.source)
  else .ok (graph.connect edge)

/-! ### Normalization -/

/-- What a normalization leads to. -/
structure Normalized where
  graph : Graph
  store : Option TokenStore
  pool : Pool
  applied : Bool

/-- The graph with all lines in normal form. -/
def normalizeLines (graph : Graph) (normalizer : Normalizer) : Graph :=
  { graph with
    blocks := graph.blocks.map fun _ block =>
      { block with lines := block.lines.map normalizer.normalizeLine }
    normalizer := some normalizer.name }

/-- Registers the lines of every block in a store. -/
def registerLines (graph : Graph) (pool : Pool) (store : TokenStore) : TokenStore × Pool :=
  graph.blockList.foldl
    (fun state block =>
      let registered := state.1.register state.2 block.lines
      (registered.store, registered.pool))
    (store, pool)

/-- Normalizes every line, unless the graph came from a normalizer of the same name and that is
not forced. The lines are registered in the given store, or else in the graph's own one. -/
def normalize (graph : Graph) (pool : Pool) (normalizer : Normalizer)
    (store : Option TokenStore) (force : Bool) : Normalized :=
  let applied := force || graph.normalizer != some normalizer.name
  let graph := if applied then graph.normalizeLines normalizer else graph
  match store, graph.tokens with
  | some store, _ =>
    let (store, pool) := graph.registerLines pool store
    ⟨graph, some store, pool, applied⟩
  | none, some own =>
    let (own, pool) := graph.registerLines pool own
    ⟨{ graph with tokens := some own }, none, pool, applied⟩
  | none, none => ⟨graph, none, pool, applied⟩

/-- Normalizes a copy. -/
def normalized (graph : Graph) (pool : Pool) (normalizer : Normalizer)
    (store : Option TokenStore) (force : Bool) : Normalized :=
  graph.copy.normalize pool normalizer store force

end Graph

end FlowGraph
