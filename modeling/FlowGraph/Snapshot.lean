/-
This file defines snapshots: graphs as files hold them. A snapshot lists the functions with
their blocks and every block with the edges it lists. Rebuilding a graph from a snapshot adds
all functions in one batch, which wires the edges. Empty labels, line addresses and metadata of
blocks and functions are left out of the text.
-/

import FlowGraph.Graph.View

namespace FlowGraph

/-- A block as a file holds it. -/
structure BlockSnapshot where
  address : Address
  labels : Std.ExtTreeSet String
  lines : List String
  lineAddresses : List Address
  metadata : Metadata
  edgesOut : List Edge
  edgesIn : List Edge

/-- A function as a file holds it. -/
structure FunctionSnapshot where
  address : Address
  name : Option String
  isExternal : Bool
  metadata : Metadata
  blocks : List BlockSnapshot

/-- A graph as a file holds it. -/
structure Snapshot where
  normalizer : Option String
  metadata : Metadata
  functions : List FunctionSnapshot

namespace Edge

/-- An edge as JSON. -/
def toJson (edge : Edge) : Json.Value :=
  .record [("from", .address edge.source), ("to", .address edge.target),
    ("edge_type", .text edge.kind.name)]

/-- Reads an edge from JSON. -/
def decode : Json.Decoder Edge :=
  Json.Decoder.known ["from", "to", "edge_type"] fun record => do
    let source ← record.required "from" Json.Decoder.word
    let target ← record.required "to" Json.Decoder.word
    let kind ← record.required "edge_type" (Json.Decoder.alternative EdgeKind.ofName?)
    return { source, target, kind }

end Edge

/-- A list of fields without those that are empty. -/
def presentFields (fields : List (Bool × String × Json.Value)) : List (String × Json.Value) :=
  (fields.filter fun field => field.1).map fun field => field.2

/-- A list of texts as JSON. -/
def textsToJson (texts : List String) : Json.Value := .list (texts.map .text)

/-- A list of addresses as JSON. -/
def addressesToJson (addresses : List Address) : Json.Value := .list (addresses.map .address)

namespace BlockSnapshot

/-- The snapshot of a block. -/
def ofBlock (block : Block) : BlockSnapshot :=
  ⟨block.address, block.labels, block.lines, block.lineAddresses, block.metadata,
    block.edgesOut, block.edgesIn⟩

/-- The block of a snapshot. Of a listed edge only the other end and the kind count. -/
def toBlock (snapshot : BlockSnapshot) : Block :=
  let bare := { Block.new snapshot.address with
    labels := snapshot.labels
    lines := snapshot.lines
    lineAddresses := snapshot.lineAddresses
    metadata := snapshot.metadata }
  let leaving := snapshot.edgesOut.foldl (fun block edge => block.addOut edge.target edge.kind) bare
  snapshot.edgesIn.foldl (fun block edge => block.addIn edge.source edge.kind) leaving

/-- The snapshot as JSON. -/
def toJson (snapshot : BlockSnapshot) : Json.Value :=
  .record (presentFields [
    (true, "address", .address snapshot.address),
    (!snapshot.labels.isEmpty, "labels", textsToJson snapshot.labels.toList),
    (true, "asm_lines", textsToJson snapshot.lines),
    (!snapshot.lineAddresses.isEmpty, "asm_memory_addresses",
      addressesToJson snapshot.lineAddresses),
    (!snapshot.metadata.isEmpty, "metadata", snapshot.metadata.toJson),
    (true, "edges_out", .list (snapshot.edgesOut.map Edge.toJson)),
    (true, "edges_in", .list (snapshot.edgesIn.map Edge.toJson))])

/-- Reads a snapshot from JSON. -/
def decode : Json.Decoder BlockSnapshot :=
  Json.Decoder.known ["address", "labels", "asm_lines", "asm_memory_addresses", "metadata",
      "edges_out", "edges_in"] fun record => do
    let address ← record.required "address" Json.Decoder.word
    let labels ← record.defaulted "labels" (Json.Decoder.list Json.Decoder.text) []
    let lines ← record.required "asm_lines" (Json.Decoder.list Json.Decoder.text)
    let lineAddresses ←
      record.defaulted "asm_memory_addresses" (Json.Decoder.list Json.Decoder.word) []
    let metadata ← record.defaulted "metadata" Json.Decoder.metadata ∅
    let edgesOut ← record.defaulted "edges_out" (Json.Decoder.list Edge.decode) []
    let edgesIn ← record.defaulted "edges_in" (Json.Decoder.list Edge.decode) []
    return { address, labels := Std.ExtTreeSet.ofList labels, lines, lineAddresses, metadata,
             edgesOut, edgesIn }

end BlockSnapshot

namespace FunctionSnapshot

/-- The snapshot of a function of a graph. -/
def ofFunction (graph : Graph) (function : Function) : FunctionSnapshot :=
  ⟨function.address, function.name, function.isExternal, function.metadata,
    (graph.blocksOf function).map BlockSnapshot.ofBlock⟩

/-- The function of a snapshot. -/
def toDraft (snapshot : FunctionSnapshot) : FunctionDraft :=
  ⟨some snapshot.address, snapshot.name, snapshot.isExternal, snapshot.metadata,
    snapshot.blocks.map BlockSnapshot.toBlock⟩

/-- The snapshot as JSON. -/
def toJson (snapshot : FunctionSnapshot) : Json.Value :=
  .record (presentFields [
    (true, "address", .address snapshot.address),
    (true, "name", .optional .text snapshot.name),
    (true, "is_extern_function", .boolean snapshot.isExternal),
    (!snapshot.metadata.isEmpty, "metadata", snapshot.metadata.toJson),
    (true, "blocks", .list (snapshot.blocks.map BlockSnapshot.toJson))])

/-- Reads a snapshot from JSON. -/
def decode : Json.Decoder FunctionSnapshot :=
  Json.Decoder.known ["address", "name", "is_extern_function", "metadata", "blocks"]
    fun record => do
      let address ← record.required "address" Json.Decoder.word
      let name ← record.optional "name" Json.Decoder.text
      let isExternal ← record.required "is_extern_function" Json.Decoder.boolean
      let metadata ← record.defaulted "metadata" Json.Decoder.metadata ∅
      let blocks ← record.required "blocks" (Json.Decoder.list BlockSnapshot.decode)
      return { address, name, isExternal, metadata, blocks }

end FunctionSnapshot

namespace Snapshot

/-- The snapshot of a graph. -/
def ofGraph (graph : Graph) : Snapshot :=
  ⟨graph.normalizer, graph.metadata, graph.functionList.map (FunctionSnapshot.ofFunction graph)⟩

/-- The graph of a snapshot. -/
def toGraph (snapshot : Snapshot) : Except GraphError Graph :=
  { Graph.withMetadata snapshot.metadata with normalizer := snapshot.normalizer }.addFunctions
    (snapshot.functions.map FunctionSnapshot.toDraft) false

/-- The snapshot as JSON. -/
def toJson (snapshot : Snapshot) : Json.Value :=
  .record [
    ("normalizer", .optional .text snapshot.normalizer),
    ("metadata", snapshot.metadata.toJson),
    ("functions", .list (snapshot.functions.map FunctionSnapshot.toJson))]

/-- Reads a snapshot from JSON. -/
def decode : Json.Decoder Snapshot :=
  Json.Decoder.known ["normalizer", "metadata", "functions"] fun record => do
    let normalizer ← record.optional "normalizer" Json.Decoder.text
    let metadata ← record.defaulted "metadata" Json.Decoder.metadata ∅
    let functions ← record.required "functions" (Json.Decoder.list FunctionSnapshot.decode)
    return { normalizer, metadata, functions }

end Snapshot

namespace Graph

/-- The graph as the text of a file. -/
def toText (graph : Graph) : String := (Snapshot.ofGraph graph).toJson.toText

/-- Reads a graph from the text of a file. -/
def ofText (text : String) : Except GraphError Graph :=
  match Snapshot.decode.read text with
  | none => .error .unreadableText
  | some snapshot => snapshot.toGraph

end Graph

end FlowGraph
