/-
This file builds compact graphs. The graph is normalized first if that is asked for and still
to be done; a shared dictionary attached to it then receives the lines even though a copy is
normalized. Lines are registered before the columns are filled, so a build that fails on an
address has registered them. Every column gets the narrowest width for its greatest value, and
the column of targets one that leaves its greatest value free.
-/

import FlowGraph.Adjacency
import FlowGraph.Compact

namespace FlowGraph

/-- How a compact graph is built. -/
structure CompactOptions where
  keepAddresses : Bool
  force : Bool
  deriving DecidableEq

namespace Compact

/-! ### Function names -/

/-- A name followed by a number. The number has no bound here; one of 32 bits would make a difference
only beyond `2 ^ 31` equal names. -/
def numberedName (name : String) (suffix : Nat) : String := name ++ "_" ++ toString suffix

/-- The name itself if it is free, or else followed by the least number that makes it free, however
great. There is such a number among as many as there are names and one more. -/
def freeName (taken : Std.ExtTreeMap String Nat) (name : String) : String :=
  if !taken.contains name then name
  else
    match (List.range (taken.size + 1)).find? fun suffix =>
        !taken.contains (numberedName name suffix) with
    | some suffix => numberedName name suffix
    | none => name

/-- Numbers functions in order, each under a name of its own. -/
def numberFunctions (functions : List Function) : Std.ExtTreeMap String Nat :=
  functions.zipIdx.foldl
    (fun taken entry => taken.insert (freeName taken entry.1.displayName) entry.2) ∅

/-! ### Rows -/

/-- The numbers of the functions and blocks of a graph: their ranks. -/
structure Numbering where
  functions : AddressMap Nat
  blocks : AddressMap Nat

/-- The numbering of a graph. -/
def Numbering.ofGraph (graph : Graph) : Numbering := ⟨graph.functions.ranks, graph.blocks.ranks⟩

/-- Whether a separator has to stand between calls and normal targets. -/
def needsSeparator (calls normals : List Nat) : Bool :=
  2 ≤ calls.length || (calls.length == 1 && 1 < normals.length)

/-- The targets of a block as they are stored, the separator being nothing. -/
def encodeTargets (calls normals : List Nat) : List (Option Nat) :=
  calls.map some ++ (if needsSeparator calls normals then [none] else []) ++ normals.map some

/-- What a block contributes to the columns. -/
structure Row where
  lineCount : Nat
  address : Int
  lineAddresses : List Int
  function : Nat
  targets : List (Option Nat)
  flags : BlockFlags
  metadata : Metadata

/-- An address as a signed number. -/
def signedAddress (address : Address) : Except CompactError Int :=
  if address.toNat < UInt64.size / 2 then .ok address.toNat else .error (.addressOutOfRange address)

/-- The line addresses of a block as signed numbers, or one `-1` for each line without them. -/
def signedLineAddresses (block : Block) : Except CompactError (List Int) :=
  if block.hasLineAddresses then block.lineAddresses.mapM signedAddress
  else .ok (List.replicate block.lines.length (-1))

/-- The numbers of the blocks that edges lead to. -/
def targetNumbers (ranks : AddressMap Nat) (edges : List Edge) : Except CompactError (List Nat) :=
  edges.mapM fun edge =>
    match ranks[edge.target]? with
    | some number => .ok number
    | none => .error (.danglingEdge edge)

/-- The number of the function that a block belongs to. -/
def parentNumber (ranks : AddressMap Nat) (block : Block) : Except CompactError Nat :=
  match block.parent.bind fun address => ranks[address]? with
  | some number => .ok number
  | none => .error (.graph (.functionNotFound (block.parent.getD 0)))

/-- The row of a block. Without kept addresses those of the row are empty. -/
def row (graph : Graph) (numbering : Numbering) (keepAddresses : Bool) (block : Block) :
    Except CompactError Row := do
  let address ← if keepAddresses then signedAddress block.address else pure 0
  let lineAddresses ← if keepAddresses then signedLineAddresses block else pure []
  let function ← parentNumber numbering.functions block
  let (normal, calls) := Block.splitEdges block.edgesOut
  let calls ← targetNumbers numbering.blocks calls
  let normals ← targetNumbers numbering.blocks normal
  return {
    lineCount := block.lines.length
    address
    lineAddresses
    function
    targets := encodeTargets calls normals
    flags := BlockFlags.ofBlock graph block (needsSeparator calls normals)
    metadata := block.metadata }

/-! ### Columns -/

/-- The sums of all beginnings of a list, from nothing to the whole list. -/
def offsetsOf (start : Nat) : List Nat → List Nat
  | [] => [start]
  | length :: rest => start :: offsetsOf (start + length) rest

/-- The columns of a graph whose lines have these token numbers. -/
def ofRows (graph : Graph) (keepAddresses : Bool) (store : TokenStore) (tokenCount : Nat)
    (numbers : List Nat) (rows : List Row) : Compact :=
  let lineCount := numbers.length
  let targets := rows.flatMap Row.targets
  let targetWidth := Width.fitUnsigned (rows.length + 1)
  let addresses := rows.map Row.address
  let lineAddresses := rows.flatMap Row.lineAddresses
  let kept {Content : Type} (content : Content) : Option Content :=
    if keepAddresses then some content else none
  { normalizer := graph.normalizer
    tokens := store
    functionNumbers := numberFunctions graph.functionList
    lines := .fitting tokenCount numbers
    lineOffsets := .fitting lineCount (offsetsOf 0 (rows.map Row.lineCount))
    functionOfBlock := .fitting graph.functionCount (rows.map Row.function)
    flags := rows.map Row.flags
    blockAddresses := kept (.fitting (addresses.max?.getD 0) addresses)
    lineAddresses := kept (.fitting (lineAddresses.max?.getD 0) lineAddresses)
    lineAddressOffsets := kept (.fitting lineCount
      (offsetsOf 0 (rows.map fun row => row.lineAddresses.length)))
    targets := .ofWidth targetWidth (targets.map fun target =>
      target.getD targetWidth.unsignedMax)
    targetOffsets := .fitting targets.length
      (offsetsOf 0 (rows.map fun row => row.targets.length))
    functionMetadata := .encode (graph.functionList.map Function.metadata)
    blockMetadata := .encode (rows.map Row.metadata)
    metadata := graph.metadata }

/-- The graph that is compacted, and the pool after its normalization. -/
def source (pool : Pool) (graph : Graph) (normalizer : Option Normalizer) (force : Bool) :
    Except CompactError (Graph × Pool) :=
  match normalizer, graph.normalizer with
  | some normalizer, current =>
    if current = some normalizer.name ∧ !force then .ok (graph, pool)
    else
      let normalized := graph.normalized pool normalizer none force
      .ok (normalized.graph, normalized.pool)
  | none, some _ => .ok (graph, pool)
  | none, none => .error .unnormalized

/-- Compacts a graph that needs no further normalization. -/
def ofNormalized (pool : Pool) (graph : Graph) (store : TokenStore) (keepAddresses : Bool) :
    Except CompactError Compact × Pool :=
  match graph.danglingEdges with
  | edge :: _ => (.error (.danglingEdge edge), pool)
  | [] =>
    let registered := store.register pool (graph.blockList.flatMap Block.lines)
    let compact := do
      let rows ← graph.blockList.mapM (row graph (.ofGraph graph) keepAddresses)
      let tokenCount := (registered.store.contents registered.pool).size
      return ofRows graph keepAddresses registered.store tokenCount registered.numbers rows
    (compact, registered.pool)

/-- Compacts a graph over a token store, a new one if none is given. The pool is returned as it
is afterwards, whether the build fails or not. -/
def ofGraph (pool : Pool) (graph : Graph) (normalizer : Option Normalizer)
    (store : Option TokenStore) (options : CompactOptions) : Except CompactError Compact × Pool :=
  match source pool graph normalizer options.force with
  | .error failure => (.error failure, pool)
  | .ok (graph, pool) => ofNormalized pool graph (store.getD .empty) options.keepAddresses

/-- Compacts graphs one after another over a shared dictionary, up to the first failure. -/
def ofGraphs (pool : Pool) (normalizer : Option Normalizer) (handle : Nat)
    (options : CompactOptions) : List Graph → Except CompactError (List Compact) × Pool
  | [] => (.ok [], pool)
  | graph :: rest =>
    match ofGraph pool graph normalizer (some (.shared handle)) options with
    | (.error failure, pool) => (.error failure, pool)
    | (.ok compact, pool) =>
      match ofGraphs pool normalizer handle options rest with
      | (.error failure, pool) => (.error failure, pool)
      | (.ok others, pool) => (.ok (compact :: others), pool)

end Compact

end FlowGraph
