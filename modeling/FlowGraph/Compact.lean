/-
This file defines compact graphs: normalized graphs as columns of small integers. Blocks and
functions are numbered in ascending order of their addresses. The tokens of block `i` are the
part of the column of lines from offset `i` to offset `i + 1`, and so are its targets, calls
before normal targets. Where it would not be clear how many targets are calls, a separator
stands between them: the greatest value of the column's width, which is no block number.
-/

import FlowGraph.BlockFlags
import FlowGraph.Dictionary
import FlowGraph.IntegerArray
import FlowGraph.RunLength

namespace FlowGraph

/-- A compact graph. -/
structure Compact where
  normalizer : Option String
  tokens : TokenStore
  functionNumbers : Std.ExtTreeMap String Nat
  lines : UnsignedArray
  lineOffsets : UnsignedArray
  functionOfBlock : UnsignedArray
  flags : List BlockFlags
  blockAddresses : Option SignedArray
  lineAddresses : Option SignedArray
  lineAddressOffsets : Option UnsignedArray
  targets : UnsignedArray
  targetOffsets : UnsignedArray
  functionMetadata : RunLength
  blockMetadata : RunLength
  metadata : Metadata

/-- What is numbered. -/
inductive Numbered where
  | blocks
  | functions
  deriving DecidableEq

/-- The word for what is numbered. -/
def Numbered.name : Numbered → String
  | .blocks => "blocks"
  | .functions => "functions"

/-- What can go wrong with a compact graph. Only in a compact graph that was read from a text the
flags of a block may be missing, there may be fewer targets than the flags promise separators, and
the metadata may be for too many blocks or functions. -/
inductive CompactError where
  | graph (failure : GraphError)
  | numberOutOfRange (numbered : Numbered) (number bound : Nat)
  | danglingEdge (edge : Edge)
  | unnormalized
  | addressOutOfRange (address : Address)
  | negativeAddress (address : Int)
  | unknownToken (number : Nat)
  | flagsMissing (block : Nat)
  | separatorsMissing
  | metadata (fault : RunFault)
  deriving DecidableEq

namespace CompactError

/-- Whether a failure stops the program instead of being reported. -/
def stops : CompactError → Bool
  | .flagsMissing _ | .separatorsMissing | .metadata _ => true
  | _ => false

/-- The kind of a failure. -/
def kind : CompactError → ErrorKind
  | .graph failure => failure.kind
  | _ => .invalidArgument

/-- The message of a failure. -/
def message : CompactError → String
  | .graph failure => failure.message
  | .numberOutOfRange numbered number bound =>
    "Index " ++ toString number ++ " must be < the number of " ++ numbered.name ++ " (" ++
      toString bound ++ ")"
  | .danglingEdge edge => "Edge " ++ edge.describe ++ " has an endpoint outside the CFG"
  | .unnormalized => "Must pass a normalizer if the CFG is unnormalized"
  | .addressOutOfRange address =>
    "Address " ++ Text.hexAddress address ++ " does not fit in a signed 64-bit integer"
  | .negativeAddress address => "Stored memory address " ++ toString address ++ " is negative"
  | .unknownToken number =>
    "Token id " ++ toString number ++ " is not in the token dictionary"
  | .flagsMissing block => "Block " ++ toString block ++ " has no flags"
  | .separatorsMissing => "attempt to subtract with overflow"
  | .metadata fault => fault.message

end CompactError

namespace Compact

/-! ### Counts -/

/-- The number of blocks. -/
def blockCount (compact : Compact) : Nat := compact.functionOfBlock.size

/-- The number of functions. -/
def functionCount (compact : Compact) : Nat := compact.functionNumbers.size

/-- The number of lines. -/
def lineCount (compact : Compact) : Nat := compact.lines.size

/-- The number of blocks whose flags promise a separator. -/
def separatorCount (compact : Compact) : Nat := compact.flags.countP fun flags => flags.has .multi

/-- The number of edges: targets without separators. -/
def edgeCount (compact : Compact) : Except CompactError Nat :=
  if compact.separatorCount ≤ compact.targets.size then
    .ok (compact.targets.size - compact.separatorCount)
  else .error .separatorsMissing

/-- The value that separates calls from normal targets. -/
def separator (compact : Compact) : Nat := compact.targets.maxValue

/-- Whether addresses were kept. -/
def keepsAddresses (compact : Compact) : Bool := compact.blockAddresses.isSome

/-- For how many functions and blocks there is metadata. -/
def metadataCounts (compact : Compact) : Except CompactError (Nat × Nat) := do
  let functions ← compact.functionMetadata.count.mapError .metadata
  let blocks ← compact.blockMetadata.count.mapError .metadata
  return (functions, blocks)

/-! ### Blocks -/

/-- Fails unless there is such a block. -/
def checkBlock (compact : Compact) (number : Nat) : Except CompactError Unit :=
  if number < compact.blockCount then .ok ()
  else .error (.numberOutOfRange .blocks number compact.blockCount)

/-- Fails unless there is such a function. -/
def checkFunction (compact : Compact) (number : Nat) : Except CompactError Unit :=
  if number < compact.functionCount then .ok ()
  else .error (.numberOutOfRange .functions number compact.functionCount)

/-- Where the part of a block begins and ends in a column. A missing end is the beginning. -/
def range (offsets : UnsignedArray) (number : Nat) : Nat × Nat :=
  let start := (offsets.get? number).getD 0
  (start, (offsets.get? (number + 1)).getD start)

/-- The token numbers of a block. -/
def blockTokens (compact : Compact) (number : Nat) : Except CompactError (List Nat) := do
  compact.checkBlock number
  let (start, stop) := range compact.lineOffsets number
  return compact.lines.slice start stop

/-- The lines of a block. -/
def blockLines (compact : Compact) (pool : Pool) (number : Nat) :
    Except CompactError (List String) := do
  let tokens ← compact.blockTokens number
  let dictionary := compact.tokens.contents pool
  tokens.mapM fun token =>
    match dictionary.token? token with
    | some line => .ok line
    | none => .error (.unknownToken token)

/-- The line addresses of a block, if addresses were kept. A line without one has `-1`. -/
def blockLineAddresses (compact : Compact) (number : Nat) :
    Except CompactError (Option (List Int)) := do
  compact.checkBlock number
  match compact.lineAddresses, compact.lineAddressOffsets with
  | some addresses, some offsets =>
    let (start, stop) := range offsets number
    return some (addresses.slice start stop)
  | _, _ => return none

/-- The address of a block, if addresses were kept. -/
def blockAddress (compact : Compact) (number : Nat) : Except CompactError (Option Int) := do
  compact.checkBlock number
  return compact.blockAddresses.bind fun addresses => addresses.get? number

/-- The flags of a block. -/
def blockFlags (compact : Compact) (number : Nat) : Except CompactError BlockFlags := do
  compact.checkBlock number
  match compact.flags[number]? with
  | some flags => return flags
  | none => throw (.flagsMissing number)

/-- Whether a fact holds of a block. -/
def blockHas (compact : Compact) (fact : BlockFact) (number : Nat) : Except CompactError Bool := do
  return (← compact.blockFlags number).has fact

/-- The targets of a part of the column with their kinds. Without the call flag all targets are
normal; with it but without a separator the first one is a call; otherwise the targets before
the separator are. -/
def typedTargets (flags : BlockFlags) (separator : Nat) (part : List Nat) :
    List (Nat × EdgeKind) :=
  if !flags.has .call then part.map fun target => (target, .normal)
  else if !flags.has .multi then
    match part with
    | [] => []
    | called :: rest => (called, .functionCall) :: rest.map fun target => (target, .normal)
  else
    let calls := part.takeWhile fun target => target != separator
    let normals := (part.dropWhile fun target => target != separator).drop 1
    (calls.map fun target => (target, .functionCall)) ++
      normals.map fun target => (target, .normal)

/-- The targets of a block with their kinds, calls first. -/
def blockTargets (compact : Compact) (number : Nat) :
    Except CompactError (List (Nat × EdgeKind)) := do
  let flags ← compact.blockFlags number
  let (start, stop) := range compact.targetOffsets number
  return typedTargets flags compact.separator (compact.targets.slice start stop)

/-- The targets of a block, calls first. -/
def blockSuccessors (compact : Compact) (number : Nat) : Except CompactError (List Nat) := do
  return (← compact.blockTargets number).map Prod.fst

/-- The number of the function that a block belongs to. -/
def blockFunction (compact : Compact) (number : Nat) : Except CompactError Nat := do
  compact.checkBlock number
  return (compact.functionOfBlock.get? number).getD 0

/-- The metadata of a block. -/
def metadataOfBlock (compact : Compact) (number : Nat) : Except CompactError Metadata := do
  compact.checkBlock number
  let found ← (compact.blockMetadata.tableAt number).mapError .metadata
  return found.getD ∅

/-- Everything that is known about a block. -/
structure BlockInfo where
  tokens : List Nat
  lineAddresses : Option (List Int)
  targets : List Nat
  kinds : List EdgeKind
  function : Nat
  flags : BlockFlags
  metadata : Metadata

/-- Everything that is known about a block. -/
def blockInfo (compact : Compact) (number : Nat) : Except CompactError BlockInfo := do
  let typed ← compact.blockTargets number
  let tokens ← compact.blockTokens number
  let lineAddresses ← compact.blockLineAddresses number
  let function ← compact.blockFunction number
  let flags ← compact.blockFlags number
  let metadata ← compact.metadataOfBlock number
  return { tokens, lineAddresses, targets := typed.map Prod.fst, kinds := typed.map Prod.snd,
           function, flags, metadata }

/-! ### Functions -/

/-- The names of the functions by number. A number that no name has is left empty, and a number
beyond the count is passed over. -/
def functionNames (compact : Compact) : List String :=
  compact.functionNumbers.toList.foldl (fun names entry => names.set entry.2 entry.1)
    (List.replicate compact.functionCount "")

/-- The name of a function. -/
def functionName (compact : Compact) (number : Nat) : Except CompactError String := do
  compact.checkFunction number
  return (compact.functionNames[number]?).getD ""

/-- The name of the function that a block belongs to. -/
def blockFunctionName (compact : Compact) (number : Nat) : Except CompactError String := do
  compact.functionName (← compact.blockFunction number)

/-- The numbers of the blocks of a function. -/
def functionBlocks (compact : Compact) (number : Nat) : Except CompactError (List Nat) := do
  compact.checkFunction number
  return (compact.functionOfBlock.elements.zipIdx.filter fun entry => entry.1 == number).map
    fun entry => entry.2

/-- The metadata of a function. -/
def metadataOfFunction (compact : Compact) (number : Nat) : Except CompactError Metadata := do
  compact.checkFunction number
  let found ← (compact.functionMetadata.tableAt number).mapError .metadata
  return found.getD ∅

/-! ### All edges -/

/-- The targets of all blocks with the number of the source. -/
def entries (compact : Compact) : Except CompactError (List ((Nat × Nat) × EdgeKind)) := do
  let rows ← (List.range compact.blockCount).mapM fun number => do
    let targets ← compact.blockTargets number
    return targets.map fun target => ((number, target.1), target.2)
  return rows.flatten

/-- The source and target of every edge, block by block. -/
def coordinates (compact : Compact) : Except CompactError (List (Nat × Nat)) :=
  compact.entries.map fun entries => entries.map Prod.fst

/-- The code of every edge, in the same order. -/
def edgeCodes (compact : Compact) : Except CompactError (List Nat) :=
  compact.entries.map fun entries => entries.map fun entry => entry.2.code

/-! ### Changes -/

/-- Replaces the token store. -/
def setTokens (compact : Compact) (tokens : TokenStore) : Compact := { compact with tokens }

/-- Forgets the tokens and keeps their numbers. -/
def dropTokens (compact : Compact) : Compact := { compact with tokens := .empty }

/-- Adds metadata. -/
def updateMetadata (compact : Compact) (additions : Metadata) : Compact :=
  { compact with metadata := compact.metadata.extend additions }

/-! ### Equality and text -/

/-- Whether two compact graphs are equal. Only what their token stores hold matters. -/
def same (pool : Pool) (left right : Compact) : Bool :=
  left.normalizer == right.normalizer && left.tokens.same pool right.tokens &&
    left.functionNumbers == right.functionNumbers && left.lines == right.lines &&
    left.lineAddresses == right.lineAddresses && left.blockAddresses == right.blockAddresses &&
    left.lineAddressOffsets == right.lineAddressOffsets &&
    left.lineOffsets == right.lineOffsets && left.functionOfBlock == right.functionOfBlock &&
    left.flags == right.flags && left.metadata.same right.metadata &&
    left.functionMetadata.same right.functionMetadata &&
    left.blockMetadata.same right.blockMetadata && left.targets == right.targets &&
    left.targetOffsets == right.targetOffsets

/-- The compact graph in one sentence, if its edges can be counted. -/
def describe (compact : Compact) : Except CompactError String := do
  let edges ← compact.edgeCount
  return "MemCFG with normalizer: " ++ Text.quoted (compact.normalizer.getD "none") ++ " and " ++
    toString compact.functionCount ++ " functions, " ++ toString compact.blockCount ++
    " blocks, " ++ toString compact.lineCount ++ " assembly lines, and " ++
    toString edges ++ " edges"

end Compact

end FlowGraph
