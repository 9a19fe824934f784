/-
This file exchanges graphs with tools for general multigraphs. Blocks become nodes, edges are
keyed by the name of their kind, and functions are attributes of the whole graph. Edges that
enter from outside the graph are listed after all edges that leave a block, so they survive
the way back. Labels are not exchanged.
-/

import FlowGraph.Snapshot

namespace FlowGraph

/-- A block as a node. -/
structure ExchangeNode where
  address : Address
  lines : List String
  lineAddresses : List Address
  metadata : Metadata

/-- An edge between nodes, keyed by the name of its kind. -/
structure ExchangeEdge where
  source : Address
  target : Address
  key : String
  deriving DecidableEq

/-- A function as an attribute. -/
structure ExchangeFunction where
  name : Option String
  isExternal : Bool
  blocks : List Address
  metadata : Metadata

/-- A graph in exchange form. -/
structure Exchange where
  normalizer : Option String
  metadata : Metadata
  functions : AddressMap ExchangeFunction
  nodes : List ExchangeNode
  edges : List ExchangeEdge

namespace ExchangeNode

/-- The node of a block. -/
def ofBlock (block : Block) : ExchangeNode :=
  ⟨block.address, block.lines, block.lineAddresses, block.metadata⟩

/-- The block of a node, without edges. -/
def toBlock (node : ExchangeNode) : Block :=
  { Block.new node.address with
    lines := node.lines, lineAddresses := node.lineAddresses, metadata := node.metadata }

/-- The node as JSON. -/
def toJson (node : ExchangeNode) : Json.Value :=
  .record [("id", .address node.address), ("asm_lines", textsToJson node.lines),
    ("asm_memory_addresses", addressesToJson node.lineAddresses),
    ("metadata", node.metadata.toJson)]

/-- Reads a node from JSON. -/
def decode : Json.Decoder ExchangeNode :=
  Json.Decoder.known ["id", "asm_lines", "asm_memory_addresses", "metadata"] fun record => do
    let address ← record.required "id" Json.Decoder.word
    let lines ← record.required "asm_lines" (Json.Decoder.list Json.Decoder.text)
    let lineAddresses ←
      record.required "asm_memory_addresses" (Json.Decoder.list Json.Decoder.word)
    let metadata ← record.required "metadata" Json.Decoder.metadata
    return { address, lines, lineAddresses, metadata }

end ExchangeNode

namespace ExchangeEdge

/-- An edge in exchange form. -/
def ofEdge (edge : Edge) : ExchangeEdge := ⟨edge.source, edge.target, edge.kind.name⟩

/-- The edge as JSON. -/
def toJson (edge : ExchangeEdge) : Json.Value :=
  .record [("source", .address edge.source), ("target", .address edge.target),
    ("key", .text edge.key)]

/-- Reads an edge from JSON. -/
def decode : Json.Decoder ExchangeEdge :=
  Json.Decoder.known ["source", "target", "key"] fun record => do
    let source ← record.required "source" Json.Decoder.word
    let target ← record.required "target" Json.Decoder.word
    let key ← record.required "key" Json.Decoder.text
    return { source, target, key }

end ExchangeEdge

namespace ExchangeFunction

/-- A function in exchange form. -/
def ofFunction (function : Function) : ExchangeFunction :=
  ⟨function.name, function.isExternal, function.blocks, function.metadata⟩

/-- The function as JSON. -/
def toJson (function : ExchangeFunction) : Json.Value :=
  .record [("name", .optional .text function.name),
    ("is_extern_function", .boolean function.isExternal),
    ("blocks", addressesToJson function.blocks), ("metadata", function.metadata.toJson)]

/-- Reads a function from JSON. -/
def decode : Json.Decoder ExchangeFunction :=
  Json.Decoder.known ["name", "is_extern_function", "blocks", "metadata"] fun record => do
    let name ← record.optional "name" Json.Decoder.text
    let isExternal ← record.required "is_extern_function" Json.Decoder.boolean
    let blocks ← record.required "blocks" (Json.Decoder.list Json.Decoder.word)
    let metadata ← record.required "metadata" Json.Decoder.metadata
    return { name, isExternal, blocks, metadata }

end ExchangeFunction

namespace Exchange

/-- The edges that enter a graph from outside, block by block. -/
def pendingEdges (graph : Graph) : List Edge :=
  (graph.blockList.flatMap Block.edgesIn).filter fun edge => !graph.blocks.contains edge.source

/-- A graph in exchange form. -/
def ofGraph (graph : Graph) : Exchange where
  normalizer := graph.normalizer
  metadata := graph.metadata
  functions := graph.functions.map fun _ function => ExchangeFunction.ofFunction function
  nodes := graph.blockList.map ExchangeNode.ofBlock
  edges := (graph.edges ++ pendingEdges graph).map ExchangeEdge.ofEdge

/-- Lists an edge on the block it leaves, or on the block it enters if it comes from outside. -/
def listEdge (blocks : AddressMap Block) (edge : ExchangeEdge) :
    Except GraphError (AddressMap Block) :=
  match EdgeKind.ofName? edge.key with
  | none => .error (.unknownEdgeKind edge.key)
  | some kind =>
    if blocks.contains edge.source then
      .ok (blocks.modify edge.source fun block => block.addOut edge.target kind)
    else if blocks.contains edge.target then
      .ok (blocks.modify edge.target fun block => block.addIn edge.source kind)
    else .error (.blockNotFound edge.source)

/-- Takes the blocks at some addresses out of a table, in order. -/
def takeBlocks (blocks : AddressMap Block) :
    List Address → Except GraphError (List Block × AddressMap Block)
  | [] => .ok ([], blocks)
  | address :: rest =>
    match blocks[address]? with
    | none => .error (.blockNotFound address)
    | some block => do
      let (others, left) ← takeBlocks (blocks.erase address) rest
      return (block :: others, left)

/-- Describes functions with blocks taken out of a table. -/
def takeFunctions (blocks : AddressMap Block) :
    List (Address × ExchangeFunction) → Except GraphError (List FunctionDraft × AddressMap Block)
  | [] => .ok ([], blocks)
  | (address, function) :: rest => do
    let (own, left) ← takeBlocks blocks function.blocks
    let (others, left) ← takeFunctions left rest
    return (⟨some address, function.name, function.isExternal, function.metadata, own⟩ :: others,
      left)

/-- The graph of an exchange form. Every node has to belong to a function; of two nodes with the
same address the later one counts. -/
def toGraph (exchange : Exchange) : Except GraphError Graph := do
  let nodes : AddressMap Block := exchange.nodes.foldl
    (fun table node => table.insert node.address node.toBlock) ∅
  let listed ← exchange.edges.foldlM listEdge nodes
  let (drafts, left) ← takeFunctions listed exchange.functions.toList
  let bare := { Graph.withMetadata exchange.metadata with normalizer := exchange.normalizer }
  match left.minKey? with
  | some orphan => .error (.orphanNode orphan)
  | none => bare.addFunctions drafts false

/-- The exchange form as JSON. -/
def toJson (exchange : Exchange) : Json.Value :=
  .record [
    ("normalizer", .optional .text exchange.normalizer),
    ("metadata", exchange.metadata.toJson),
    ("functions", .record (exchange.functions.toList.map fun entry =>
      (toString entry.1.toNat, entry.2.toJson))),
    ("nodes", .list (exchange.nodes.map ExchangeNode.toJson)),
    ("edges", .list (exchange.edges.map ExchangeEdge.toJson))]

/-- Reads an exchange form from JSON. -/
def decode : Json.Decoder Exchange :=
  Json.Decoder.known ["normalizer", "metadata", "functions", "nodes", "edges"] fun record => do
    let normalizer ← record.optional "normalizer" Json.Decoder.text
    let metadata ← record.required "metadata" Json.Decoder.metadata
    let functions ← record.required "functions"
      (Json.Decoder.numberedFields ExchangeFunction.decode)
    let nodes ← record.required "nodes" (Json.Decoder.list ExchangeNode.decode)
    let edges ← record.required "edges" (Json.Decoder.list ExchangeEdge.decode)
    return { normalizer, metadata, functions := Std.ExtTreeMap.ofList functions, nodes, edges }

end Exchange

end FlowGraph
