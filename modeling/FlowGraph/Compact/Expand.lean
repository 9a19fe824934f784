/-
This file rebuilds graphs from compact graphs, and reads matrices and the instruction set off
them. Blocks get their kept addresses, or their numbers if none were kept; functions begin at
their entry block, and a name that only restates the address is dropped.
-/

import FlowGraph.Architecture
import FlowGraph.Compact.Build

namespace FlowGraph.Compact

/-! ### Matrices and instruction set -/

/-- The adjacency matrix of a compact graph. -/
def adjacency (compact : Compact) (backend : String) (sparse : Bool) :
    Except CompactError Matrix := do
  (Matrix.checkBackend backend).mapError .graph
  let entries ← compact.entries
  return Matrix.ofCoordinates compact.blockCount (entries.map Prod.fst)
    (entries.map fun entry => entry.2.code) sparse

/-- The instruction set that metadata names. -/
def architecture (compact : Compact) : Except CompactError Architecture :=
  ((Architecture.ofMetadata? compact.metadata).getD (.error .architectureUndetected)).mapError
    .graph

/-! ### Rebuilding -/

/-- A stored address as an address. -/
def storedAddress (address : Int) : Except CompactError Address :=
  if 0 ≤ address then .ok (UInt64.ofNat address.toNat) else .error (.negativeAddress address)

/-- The addresses of the rebuilt blocks: the kept ones, or the numbers. -/
def rebuiltAddresses (compact : Compact) : Except CompactError (List Address) :=
  match compact.blockAddresses with
  | some addresses => addresses.elements.mapM storedAddress
  | none => .ok ((List.range compact.blockCount).map UInt64.ofNat)

/-- The address of a block by number. -/
def addressOf (compact : Compact) (addresses : List Address) (number : Nat) :
    Except CompactError Address :=
  match addresses[number]? with
  | some address => .ok address
  | none => .error (.numberOutOfRange .blocks number compact.blockCount)

/-- The rebuilt line addresses: those before the first unknown one, if they match the lines. -/
def rebuiltLineAddresses (stored : List Int) (lines : List String) : List Address :=
  let known := (stored.takeWhile fun address => 0 ≤ address).map fun address =>
    UInt64.ofNat address.toNat
  if known.length = lines.length then known else []

/-- The block of a number. -/
def rebuiltBlock (compact : Compact) (pool : Pool) (addresses : List Address) (number : Nat)
    (metadata : Metadata) : Except CompactError Block := do
  let address ← compact.addressOf addresses number
  let stored ← compact.blockLineAddresses number
  let lines ← compact.blockLines pool number
  let targets ← compact.blockTargets number
  let edges ← targets.mapM fun target => do
    let address ← compact.addressOf addresses target.1
    return (address, target.2)
  let bare := { Block.new address with
    lines, metadata, lineAddresses := rebuiltLineAddresses (stored.getD []) lines }
  return edges.foldl (fun block edge => block.addOut edge.1 edge.2) bare

/-- Gives a block to its function. -/
def giveBlock (drafts : List FunctionDraft) (function : Nat) (flags : BlockFlags)
    (block : Block) : List FunctionDraft :=
  drafts.modify function fun draft =>
    { draft with
      isExternal := draft.isExternal || flags.has .external
      address := if flags.has .entry then some block.address else draft.address
      blocks := draft.blocks ++ [block] }

/-- Rebuilds a block and gives it to its function. -/
def rebuildInto (compact : Compact) (pool : Pool) (addresses : List Address)
    (drafts : List FunctionDraft) (entry : Metadata × Nat) :
    Except CompactError (List FunctionDraft) := do
  let (metadata, number) := entry
  let block ← compact.rebuiltBlock pool addresses number metadata
  let flags ← compact.blockFlags number
  let function ← compact.blockFunction number
  if function < drafts.length then return giveBlock drafts function flags block
  else throw (.numberOutOfRange .functions function compact.functionCount)

/-- How many functions memory can hold in one list before they have blocks. A function takes 96
bytes in it. -/
def greatestDraftCount : Nat := RunLength.roomFor 96

/-- The functions before they have blocks: one for each name, with metadata as far as it reaches.
At first there is one for each table, even without a name. -/
def bareDrafts (compact : Compact) (tables : List Metadata) :
    Except CompactError (List FunctionDraft) :=
  let known := tables.take compact.functionCount
  let missing := compact.functionCount - known.length
  if tables.length ≤ greatestDraftCount then
    .ok ((known ++ List.replicate missing ∅).map fun metadata =>
      { FunctionDraft.empty with metadata })
  else .error (.metadata .capacity)

/-- The function under its name, unless it has neither an address nor blocks. -/
def namedDraft? (name : String) (draft : FunctionDraft) : Option FunctionDraft :=
  match draft.resolvedAddress? with
  | none => none
  | some address =>
    if name = unnamedFunctionName address then some draft
    else some { draft with name := some name }

/-- The graph of a compact graph. All metadata is expanded before it is known how much of it is
needed. -/
def toGraph (compact : Compact) (pool : Pool) : Except CompactError Graph := do
  let addresses ← compact.rebuiltAddresses
  let bareDrafts ← compact.bareDrafts (← compact.functionMetadata.decode.mapError .metadata)
  let tables ← compact.blockMetadata.decode.mapError .metadata
  let drafts ← (tables.take compact.blockCount).zipIdx.foldlM
    (compact.rebuildInto pool addresses) bareDrafts
  let named := (compact.functionNames.zip drafts).filterMap fun entry =>
    namedDraft? entry.1 entry.2
  let bare := { Graph.withMetadata compact.metadata with normalizer := compact.normalizer }
  (bare.addFunctions named false).mapError .graph

/-- Compacts the rebuilt graph with another normalizer, keeping addresses if they were kept. -/
def normalize (compact : Compact) (pool : Pool) (normalizer : Normalizer)
    (store : Option TokenStore) (force : Bool) : Except CompactError Compact × Pool :=
  match compact.toGraph pool with
  | .error failure => (.error failure, pool)
  | .ok graph => ofGraph pool graph (some normalizer) store ⟨compact.keepsAddresses, force⟩

end FlowGraph.Compact
