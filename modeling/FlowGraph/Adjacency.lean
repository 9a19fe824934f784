/-
This file defines adjacency matrices over the blocks of a graph in address order. An entry is
the code of an edge's kind. Matrices come as rows or as coordinates with values; only one kind
of array library is known by name.
-/

import FlowGraph.Graph.View
import FlowGraph.Text.Case

namespace FlowGraph

/-- An adjacency matrix. -/
inductive Matrix where
  | dense (rows : List (List Nat))
  | sparse (rows columns values : List Nat)
  deriving DecidableEq

namespace Matrix

/-- Replaces an entry of a matrix; entries outside do not exist. -/
def setEntry (rows : List (List Nat)) (row column value : Nat) : List (List Nat) :=
  rows.modify row fun entries => entries.set column value

/-- The matrix of coordinates and values. Coordinates without a value are dropped from the dense
form, and of several values for one entry the last one stays. -/
def ofCoordinates (size : Nat) (coordinates : List (Nat × Nat)) (values : List Nat)
    (sparse : Bool) : Matrix :=
  if sparse then .sparse (coordinates.map Prod.fst) (coordinates.map Prod.snd) values
  else
    let zeros := List.replicate size (List.replicate size 0)
    .dense ((coordinates.zip values).foldl
      (fun rows entry => setEntry rows entry.1.1 entry.1.2 entry.2) zeros)

/-- Accepts the names of the one array library there is; capital letters do not matter. -/
def checkBackend (name : String) : Except GraphError Unit :=
  let lowered := Text.lowercase name.toList
  if lowered = "np".toList ∨ lowered = "numpy".toList then .ok ()
  else .error (.unsupportedBackend name)

end Matrix

namespace Graph

/-- The edges that leave a block, calls first. -/
def callsFirst (block : Block) : List Edge :=
  let (normal, calls) := Block.splitEdges block.edgesOut
  calls ++ normal

/-- The entries of one row: the number of each target and the code of the kind. Blocks are
numbered by rank. -/
def rowEntries (ranks : AddressMap Nat) (block : Block) : Except GraphError (List (Nat × Nat)) :=
  (callsFirst block).mapM fun edge =>
    match ranks[edge.target]? with
    | some column => .ok (column, edge.kind.code)
    | none => .error (.blockNotFound edge.target)

/-- The adjacency matrix of a graph. -/
def adjacency (graph : Graph) (backend : String) (sparse : Bool) : Except GraphError Matrix := do
  Matrix.checkBackend backend
  let rows ← graph.blockList.mapM (rowEntries graph.blocks.ranks)
  let entries := rows.zipIdx.flatMap fun (row, number) =>
    row.map fun entry => ((number, entry.1), entry.2)
  return Matrix.ofCoordinates graph.blockCount (entries.map Prod.fst) (entries.map Prod.snd) sparse

end Graph

end FlowGraph
