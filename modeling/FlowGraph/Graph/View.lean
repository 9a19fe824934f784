/-
This file reads graphs: counts, lookups, edges that wait for a block, facts about functions,
and equality. Everything is listed in ascending order of addresses.
-/

import FlowGraph.Graph

namespace FlowGraph.Graph

/-! ### Counts -/

/-- The number of functions. -/
def functionCount (graph : Graph) : Nat := graph.functions.size

/-- The number of blocks. -/
def blockCount (graph : Graph) : Nat := graph.blocks.size

/-- The number of edges, each counted on the block it leaves. -/
def edgeCount (graph : Graph) : Nat := (graph.blockList.flatMap Block.edgesOut).length

/-- The number of lines. -/
def lineCount (graph : Graph) : Nat := (graph.blockList.flatMap Block.lines).length

/-- How often each line occurs in some blocks. -/
def countLines (blocks : List Block) : Std.ExtTreeMap String Nat :=
  (blocks.flatMap Block.lines).foldl
    (fun counts line => counts.alter line fun count => some (count.getD 0 + 1)) ∅

/-- How often each line occurs. -/
def lineCounts (graph : Graph) : Std.ExtTreeMap String Nat := countLines graph.blockList

/-! ### Lookups -/

/-- The function at an address. -/
def function (graph : Graph) (address : Address) : Except GraphError Function :=
  match graph.functions[address]? with
  | some function => .ok function
  | none => .error (.functionNotFound address)

theorem function_eq_ok_iff {graph : Graph} {address : Address} {function : Function} :
    graph.function address = .ok function ↔ graph.functions[address]? = some function := by
  unfold Graph.function
  cases graph.functions[address]? with
  | none => exact ⟨fun equal => (nomatch equal), fun equal => (nomatch equal)⟩
  | some found => rw [Except.ok.injEq, Option.some.injEq]

/-- The first function with a display name. -/
def functionNamed (graph : Graph) (name : String) : Except GraphError Function :=
  match graph.functionList.find? fun function => function.displayName == name with
  | some function => .ok function
  | none => .error (.functionNameNotFound name)

/-- The block at an address. -/
def block (graph : Graph) (address : Address) : Except GraphError Block :=
  match graph.blocks[address]? with
  | some block => .ok block
  | none => .error (.blockNotFound address)

/-- The block that holds a line at an address, or the failure, and the graph with its index
built. -/
def blockContaining (graph : Graph) (address : Address) : Except GraphError Block × Graph :=
  let (found, indexed) := graph.blockContaining? address
  match found with
  | some block => (.ok block, indexed)
  | none => (.error (.noBlockContaining address), indexed)

/-! ### Edges -/

/-- The edges that leave a block, block by block. -/
def edges (graph : Graph) : List Edge := graph.blockList.flatMap Block.edgesOut

/-- The listed edges with an end outside the graph, each of them once. -/
def danglingEdges (graph : Graph) : List Edge :=
  ((graph.listedEdges.filter fun edge => !graph.spans edge).foldl Block.insertEdge [])

/-- Whether a normal edge of a block leads into another function. -/
def jumpsAway (graph : Graph) (block : Block) : Bool :=
  block.edgesOut.any fun edge =>
    edge.kind == .normal &&
      match graph.blocks[edge.target]? with
      | some target => target.parent != block.parent
      | none => false

/-! ### Functions -/

/-- The block where a function begins. -/
def entryBlock (graph : Graph) (function : Function) : Except GraphError Block :=
  match graph.blocks[function.address]? with
  | some block =>
    if block.parent = some function.address then .ok block
    else .error (.noEntryBlock function.address)
  | none => .error (.noEntryBlock function.address)

theorem entryBlock_eq_ok_iff {graph : Graph} {function : Function} {block : Block} :
    graph.entryBlock function = .ok block ↔
      graph.blocks[function.address]? = some block ∧ block.parent = some function.address := by
  unfold entryBlock
  cases graph.blocks[function.address]? with
  | none => exact ⟨fun equal => (nomatch equal), fun both => (nomatch both.1)⟩
  | some found =>
    dsimp only
    rw [Option.some.injEq]
    split
    · rename_i own
      exact ⟨fun equal => ⟨Except.ok.inj equal, Except.ok.inj equal ▸ own⟩,
        fun both => congrArg Except.ok both.1⟩
    · rename_i foreign
      exact ⟨fun equal => (nomatch equal), fun both => absurd both.2 (both.1 ▸ foreign)⟩

/-- The blocks that call a function. -/
def callers (graph : Graph) (function : Function) : List Block :=
  graph.blockList.filter fun block => block.calls function.address

/-- Whether nobody calls a function. -/
def isRoot (graph : Graph) (function : Function) : Bool :=
  !graph.blockList.any fun block => block.calls function.address

/-- Whether a function calls itself. -/
def isRecursive (graph : Graph) (function : Function) : Bool :=
  (graph.blocksOf function).any fun block => block.calls function.address

/-- The number of lines of a function. -/
def linesOf (graph : Graph) (function : Function) : Nat :=
  ((graph.blocksOf function).flatMap Block.lines).length

/-! ### Equality -/

section

variable {Hash : Type} [DecidableEq Hash] (hash : Block.Key → Hash)

/-- Whether functions of two graphs agree in everything except the order of their blocks, which are
compared by a hash. -/
def sameFunctionBy (left : Graph) (leftFunction : Function) (right : Graph)
    (rightFunction : Function) : Bool :=
  let leftBlocks := left.blocksOf leftFunction
  let rightBlocks := right.blocksOf rightFunction
  leftFunction.address == rightFunction.address && leftFunction.name == rightFunction.name &&
    leftFunction.isExternal == rightFunction.isExternal &&
    leftFunction.metadata.same rightFunction.metadata &&
    leftBlocks.length == leftFunction.blocks.length &&
    rightBlocks.length == rightFunction.blocks.length &&
    Block.sameBlocksBy hash leftBlocks rightBlocks

/-- Whether two graphs are equal, where blocks are compared by a hash. Their token stores and
indexes do not matter. -/
def sameBy (left right : Graph) : Bool :=
  left.normalizer == right.normalizer && left.metadata.same right.metadata &&
    left.functions.size == right.functions.size &&
    left.functions.toList.all fun entry =>
      match right.functions[entry.1]? with
      | some theirs => sameFunctionBy hash left entry.2 right theirs
      | none => false

end

/-- Whether two graphs are equal. Their token stores and indexes do not matter. -/
def same (left right : Graph) : Bool := sameBy id left right

/-! ### Text -/

/-- The graph in one sentence. -/
def describe (graph : Graph) : String :=
  let normalizer := match graph.normalizer with
    | none => "no normalizer"
    | some name => "normalizer: " ++ Text.quoted name
  "CFG with " ++ normalizer ++ " and " ++ toString graph.functionCount ++ " functions, " ++
    toString graph.blockCount ++ " basic blocks, " ++ toString graph.edgeCount ++
    " edges, and " ++ toString graph.lineCount ++ " lines of assembly"

end FlowGraph.Graph
