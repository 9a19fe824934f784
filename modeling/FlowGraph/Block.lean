/-
This file defines basic blocks. A block has lines, perhaps an address for each of them, labels,
metadata, and the edges that leave and enter it. Edges stand in the order in which they were
found, each of them once. Two blocks are equal if they agree in everything except the order of
their edges and the function they belong to.
-/

import Std.Data.ExtTreeSet
import FlowGraph.Edge
import FlowGraph.Json.Writer

namespace FlowGraph

/-- A basic block. -/
structure Block where
  address : Address
  labels : Std.ExtTreeSet String
  lines : List String
  lineAddresses : List Address
  metadata : Metadata
  edgesOut : List Edge
  edgesIn : List Edge
  parent : Option Address

namespace Block

/-- The block without any contents. -/
def new (address : Address) : Block := ⟨address, ∅, [], [], ∅, [], [], none⟩

instance : Inhabited Block := ⟨new 0⟩

/-! ### Building -/

/-- Adds an edge unless it is there. -/
def insertEdge (edges : List Edge) (edge : Edge) : List Edge :=
  if edge ∈ edges then edges else edges ++ [edge]

/-- Lists an edge among those that leave the block. -/
def listOut (block : Block) (edge : Edge) : Block :=
  { block with edgesOut := insertEdge block.edgesOut edge }

/-- Lists an edge among those that enter the block. -/
def listIn (block : Block) (edge : Edge) : Block :=
  { block with edgesIn := insertEdge block.edgesIn edge }

/-- Adds an edge to another address. -/
def addOut (block : Block) (target : Address) (kind : EdgeKind) : Block :=
  block.listOut ⟨block.address, target, kind⟩

/-- Adds an edge from another address. -/
def addIn (block : Block) (source : Address) (kind : EdgeKind) : Block :=
  block.listIn ⟨source, block.address, kind⟩

/-! ### Reading -/

/-- Whether the lines have addresses. -/
def hasLineAddresses (block : Block) : Bool := !block.lineAddresses.isEmpty

/-- Whether the block is where its function begins. -/
def isEntry (block : Block) : Bool := block.parent == some block.address

/-- Whether some edge that leaves the block is a call. -/
def hasCall (block : Block) : Bool := block.edgesOut.any Edge.isCall

/-- Whether the block calls an address. -/
def calls (block : Block) (target : Address) : Bool :=
  block.edgesOut.any fun edge => edge.isCall && edge.target == target

/-- The normal edges of a list and then its calls, each in the order of the list. -/
def splitEdges (edges : List Edge) : List Edge × List Edge :=
  edges.partition fun edge => edge.kind == .normal

/-- The lowest and highest address of a line, or the block's own address without line
addresses. -/
def extent (block : Block) : Address × Address :=
  (block.lineAddresses.min?.getD block.address, block.lineAddresses.max?.getD block.address)

/-- The block moved by an offset, wrapping around, outside of any function. -/
def shifted (block : Block) (delta : Address) : Block :=
  { block with
    address := block.address + delta
    lineAddresses := block.lineAddresses.map (· + delta)
    edgesOut := block.edgesOut.map fun edge => edge.shifted delta
    edgesIn := block.edgesIn.map fun edge => edge.shifted delta
    parent := none }

/-! ### Equality -/

/-- Whether two blocks are equal. -/
def same (left right : Block) : Bool :=
  left.address == right.address && left.labels == right.labels && left.lines == right.lines &&
    left.lineAddresses == right.lineAddresses && left.metadata.same right.metadata &&
    Edge.sort left.edgesOut == Edge.sort right.edgesOut &&
    Edge.sort left.edgesIn == Edge.sort right.edgesIn

/-- What the hash of a block is made from: its contents, the metadata as text and the edges in
ascending order. -/
structure Key where
  address : Address
  labels : List String
  lines : List String
  lineAddresses : List Address
  metadata : String
  edgesOut : List Edge
  edgesIn : List Edge
  deriving DecidableEq

/-- The key of a block. -/
def key (block : Block) : Key :=
  ⟨block.address, block.labels.toList, block.lines, block.lineAddresses,
    block.metadata.toJson.toText, Edge.sort block.edgesOut, Edge.sort block.edgesIn⟩

/-! ### Counting -/

/-- Changes the first item that passes, or puts a new one behind the others if none does. -/
def changeFirst {Item : Type} (passes : Item → Bool) (change : Item → Item) (new : Item) :
    List Item → List Item
  | [] => [new]
  | item :: rest =>
    if passes item then change item :: rest else item :: changeFirst passes change new rest

/-- A block that stands for all that equal it, and how often these were counted. -/
structure Tally where
  sample : Block
  count : Int

/-- Counts a block together with the first sample that equals it. -/
def countIn (step : Int) (block : Block) (tallies : List Tally) : List Tally :=
  changeFirst (fun tally => tally.sample.same block)
    (fun tally => { tally with count := tally.count + step }) ⟨block, step⟩ tallies

/-- The tallies of the blocks with one hash. -/
structure Bucket (Hash : Type) where
  hash : Hash
  tallies : List Tally

section

variable {Hash : Type} [DecidableEq Hash] (hash : Key → Hash)

/-- Counts a block in the bucket of its hash. -/
def countByHash (step : Int) (buckets : List (Bucket Hash)) (block : Block) :
    List (Bucket Hash) :=
  changeFirst (fun bucket => bucket.hash = hash block.key)
    (fun bucket => { bucket with tallies := countIn step block bucket.tallies })
    ⟨hash block.key, countIn step block []⟩ buckets

/-- Whether two lists hold the same blocks equally often, in any order, where blocks are compared
only if they have the same hash: those of the first list are counted up and those of the second
one down. -/
def sameBlocksBy (left right : List Block) : Bool :=
  (right.foldl (countByHash hash (-1)) (left.foldl (countByHash hash 1) [])).all fun bucket =>
    bucket.tallies.all fun tally => tally.count == 0

end

/-- Whether two lists hold the same blocks equally often, in any order. A hash of its own for every
key stands for one without collisions. -/
def sameBlocks (left right : List Block) : Bool := sameBlocksBy id left right

end Block

end FlowGraph
