/-
This file merges the graph of a library into the graph of a host. The library is moved as a
whole by an offset, into a gap between the address ranges that the host's lines occupy, with
padding on both sides. Stubs of the host are then linked to functions of the library.

Everything that can fail is looked at before the host changes, except that addresses of
functions and blocks may still collide where they lie outside the ranges of lines.
-/

import FlowGraph.Graph.View

namespace FlowGraph

/-- Bytes that stay free on each side of a library. -/
def insertionPadding : Address := 16

/-- A range of free addresses; the end is not part of it. -/
structure Gap where
  start : Address
  stop : Address
  deriving DecidableEq

/-! ### Arithmetic at the ends of the address space -/

/-- The sum, or the highest address if the sum is beyond it. -/
def addUpTo (left right : Address) : Address :=
  if left.toNat + right.toNat < UInt64.size then left + right else 0xffffffffffffffff

/-- The sum if it is an address. -/
def addWithin? (left right : Address) : Option Address :=
  if left.toNat + right.toNat < UInt64.size then some (left + right) else none

namespace Gap

/-- Whether as many bytes from an address on fit into the gap with padding on both sides. -/
def holds (gap : Gap) (start span : Address) : Bool :=
  addUpTo gap.start insertionPadding ≤ start &&
    match (addWithin? start span).bind fun stop => addWithin? stop insertionPadding with
    | some stop => stop ≤ gap.stop
    | none => false

/-- The end of the address space that is searched, unless the host reaches beyond it. -/
def usualLimit : Address := 0x100000000

/-- Whether one range comes no later than another, by their lower and then upper ends. -/
def rangePrecedes (left right : Address × Address) : Bool :=
  if left.1 ≠ right.1 then left.1 < right.1 else left.2 ≤ right.2

/-- Joins ranges in ascending order that touch or overlap; `current` is the range being
joined. -/
def joinRanges (current : Address × Address) :
    List (Address × Address) → List (Address × Address)
  | [] => [current]
  | range :: rest =>
    if range.1 ≤ current.2 then joinRanges (current.1, max current.2 range.2) rest
    else current :: joinRanges range rest

/-- The occupied ranges, in ascending order and apart from each other. -/
def occupied (graph : Graph) : List (Address × Address) :=
  match (graph.blockList.map Block.extent).mergeSort rangePrecedes with
  | [] => []
  | first :: rest => joinRanges first rest

/-- The gaps before each range and after the last one. -/
def between (cursor limit : Address) : List (Address × Address) → List Gap
  | [] => [⟨cursor, limit⟩]
  | range :: rest => ⟨cursor, range.1⟩ :: between range.2 limit rest

/-- The end of the search: the usual one, or the highest address if the host reaches beyond. -/
def searchLimit (ranges : List (Address × Address)) : Address :=
  match ranges.getLast? with
  | some range => if usualLimit ≤ range.2 then 0xffffffffffffffff else usualLimit
  | none => usualLimit

/-- The gaps between the occupied ranges of a graph, in ascending order. -/
def free (graph : Graph) : List Gap :=
  let ranges := occupied graph
  between 0 (searchLimit ranges) ranges

end Gap

namespace Graph

/-- The lowest and the highest line address of a graph with blocks. -/
def lineSpan? (graph : Graph) : Option (Address × Address) :=
  graph.blockList.foldl
    (fun span block =>
      let (low, high) := block.extent
      match span with
      | none => some (low, high)
      | some (least, greatest) => some (min least low, max greatest high))
    none

/-- Whether a library that begins at `least` fits into a gap once it is moved. -/
def fitsGap (least span : Address) (gap : Gap) (offset : Address) : Bool :=
  match addWithin? least offset with
  | some start => gap.holds start span
  | none => false

/-- The offset for a library: the requested one if it fits some gap, or else the padded start of
the first gap where that fits. -/
def placement (host : Graph) (least span : Address) (requested : Option Address) :
    Except GraphError Address :=
  let size := addUpTo span (2 * insertionPadding)
  let gaps := Gap.free host
  match requested with
  | some offset =>
    if gaps.any fun gap => fitsGap least span gap offset then .ok offset
    else .error (.invalidInsertionAddress offset size)
  | none =>
    match gaps.find? fun gap => fitsGap least span gap (addUpTo gap.start insertionPadding) with
    | some gap => .ok (addUpTo gap.start insertionPadding)
    | none => .error (.noInsertionGap size)

/-- The link from a function of the host, if its symbol is mapped. -/
def stubEdge? (library : Graph) (mapping : Std.ExtTreeMap String Address) (offset : Address)
    (function : Function) : Except GraphError (Option Edge) :=
  match function.symbol?.bind fun name => mapping[name]?.map fun target => (name, target) with
  | none => .ok none
  | some (name, target) => do
    let called ← library.function target
    let _ ← library.entryBlock called
    match function.blocks with
    | [stub] => return some ⟨stub, target + offset, .normal⟩
    | blocks => throw (.stubBlockCount name function.address blocks.length)

/-- The links from the host's stubs into the library. -/
def stubEdges (host library : Graph) (mapping : Std.ExtTreeMap String Address)
    (offset : Address) : Except GraphError (List Edge) :=
  (host.functionList.mapM (stubEdge? library mapping offset)).map fun edges =>
    edges.filterMap id

/-- The functions of a library, moved. -/
def relocated (library : Graph) (offset : Address) : List FunctionDraft :=
  library.functionList.map fun function =>
    ⟨some (function.address + offset), function.name, function.isExternal, function.metadata,
      (library.blocksOf function).map fun block => block.shifted offset⟩

/-- Merges a library into the host and returns the offset by which it was moved. -/
def insertLibrary (host library : Graph) (mapping : Std.ExtTreeMap String Address)
    (requested : Option Address) : Except GraphError (Address × Graph) := do
  match library.lineSpan? with
  | none => throw .emptyLibrary
  | some (least, greatest) =>
    let offset ← host.placement least (greatest - least) requested
    let links ← host.stubEdges library mapping offset
    let merged ← host.addFunctions (library.relocated offset) false
    let linked ← links.foldlM addEdge merged
    return (offset, linked)

end Graph

end FlowGraph
