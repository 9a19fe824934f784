/-
This file proves that a compact graph does not depend on the addresses of the
graph it is built from, as long as they are not kept: only their order matters.
The same holds of the names of functions, which only have to be the ones that
are assigned anyway, and of the order of calls among other edges. The addresses
need to stay distinct only as far as they occur in the graph.
-/

import FlowGraph.Proofs.Faithful

namespace FlowGraph

/-! ### Tables with the same order -/

namespace AddressMap

variable {Content Other Image : Type} {left : AddressMap Content} {right : AddressMap Other}
  {move : Address → Address}

theorem rank_moved (addresses : right.addresses = left.addresses.map move) {address : Address}
    (member : address ∈ left.addresses) : right.rank (move address) = left.rank address := by
  refine rank_eq ?_
  rw [addresses, List.getElem?_map, getElem?_rank member]
  rfl

theorem moved_inj (addresses : right.addresses = left.addresses.map move)
    {first second : Address} (firstMember : first ∈ left.addresses)
    (secondMember : second ∈ left.addresses) (same : move first = move second) :
    first = second := by
  have distinct := right.nodup_addresses
  rw [addresses] at distinct
  exact List.inj_on_of_nodup_map distinct firstMember secondMember same

/-- What is read off the contents is the same if it is the same at each address. -/
theorem map_contents_moved {read : Content → Image} {readOther : Other → Image}
    (addresses : right.addresses = left.addresses.map move)
    (each : ∀ {address : Address} {content : Content}, left[address]? = some content →
      ∃ other, right[move address]? = some other ∧ readOther other = read content) :
    right.contents.map readOther = left.contents.map read := by
  refine List.ext_getElem? fun number => ?_
  rw [List.getElem?_map, List.getElem?_map, getElem?_contents, getElem?_contents, addresses,
    List.getElem?_map]
  cases there : left.addresses[number]? with
  | none => rfl
  | some address =>
    obtain ⟨content, found⟩ := (mem_addresses _ _).mp (List.mem_of_getElem? there)
    obtain ⟨other, otherFound, same⟩ := each found
    simp only [Option.map_some, Option.bind_some, found, otherFound, same]

end AddressMap

/-! ### Renumbered graphs -/

/-- An edge whose ends moved. -/
def Edge.moved (move : Address → Address) (edge : Edge) : Edge :=
  ⟨move edge.source, move edge.target, edge.kind⟩

/-- Whether a block is another one that moved, as far as compact graphs are concerned. -/
structure Block.MovesTo (move : Address → Address) (keepAddresses : Bool) (block other : Block) :
    Prop where
  address : other.address = move block.address
  parent : other.parent = block.parent.map move
  lines : other.lines = block.lines
  metadata : other.metadata = block.metadata
  lineAddresses : keepAddresses = true → other.lineAddresses = block.lineAddresses
  normals : (splitEdges other.edgesOut).1 = (splitEdges block.edgesOut).1.map (Edge.moved move)
  calls : (splitEdges other.edgesOut).2 = (splitEdges block.edgesOut).2.map (Edge.moved move)

/-- Whether a graph is another one that moved, as far as compact graphs are concerned. -/
structure Graph.MovesTo (move : Address → Address) (keepAddresses : Bool) (graph other : Graph) :
    Prop where
  kept : keepAddresses = true → ∀ address, move address = address
  normalizer : other.normalizer = graph.normalizer
  metadata : other.metadata = graph.metadata
  entries : graph.functions.addresses ⊆ graph.blocks.addresses
  functionAddresses : other.functions.addresses = graph.functions.addresses.map move
  blockAddresses : other.blocks.addresses = graph.blocks.addresses.map move
  names : other.functionList.map Function.displayName = Compact.namesOf graph.functionList
  functions : ∀ {address : Address} {function : Function},
    graph.functions[address]? = some function →
      ∃ moved, other.functions[move address]? = some moved ∧
        moved.isExternal = function.isExternal ∧ moved.metadata = function.metadata
  blocks : ∀ {address : Address} {block : Block}, graph.blocks[address]? = some block →
    ∃ moved, other.blocks[move address]? = some moved ∧ block.MovesTo move keepAddresses moved

/-! ### Rows -/

theorem Graph.jumpsAway_eq (graph : Graph) (block : Block) :
    graph.jumpsAway block = (Block.splitEdges block.edgesOut).1.any fun edge =>
      match graph.blocks[edge.target]? with
      | some target => target.parent != block.parent
      | none => false := by
  rw [Block.splitEdges, List.partition_eq_filter_filter]
  exact List.any_filter.symm

namespace Graph.MovesTo

variable {move : Address → Address} {keepAddresses : Bool} {graph other : Graph}
  {block moved : Block}

theorem blocks_inj (moves : MovesTo move keepAddresses graph other) {first second : Address}
    (firstMember : first ∈ graph.blocks.addresses) (secondMember : second ∈ graph.blocks.addresses)
    (same : move first = move second) : first = second :=
  AddressMap.moved_inj moves.blockAddresses firstMember secondMember same

theorem parentRank_eq (moves : MovesTo move keepAddresses graph other) (laid : graph.Laid)
    (listed : block ∈ graph.blockList) (movesTo : block.MovesTo move keepAddresses moved) :
    other.parentRank moved = graph.parentRank block := by
  obtain ⟨function, found, parent⟩ := laid.exists_parent listed
  rw [parentRank, movesTo.parent, parentRank, parent]
  exact AddressMap.rank_moved moves.functionAddresses (AddressMap.mem_addresses_of_getElem? found)

theorem ranks_eq (moves : MovesTo move keepAddresses graph other)
    (closed : graph.danglingEdges = []) (listed : block ∈ graph.blockList) {edges : List Edge}
    (own : ∀ edge ∈ edges, edge ∈ block.edgesOut) :
    ((edges.map (Edge.moved move)).map fun edge => other.blocks.rank edge.target) =
      edges.map fun edge => graph.blocks.rank edge.target := by
  rw [List.map_map]
  exact List.map_congr_left fun edge member => AddressMap.rank_moved moves.blockAddresses
    (target_mem_addresses closed listed (own edge member))

theorem jumpsAway_eq (moves : MovesTo move keepAddresses graph other) (laid : graph.Laid)
    (closed : graph.danglingEdges = []) (listed : block ∈ graph.blockList)
    (movesTo : block.MovesTo move keepAddresses moved) :
    other.jumpsAway moved = graph.jumpsAway block := by
  rw [Graph.jumpsAway_eq, Graph.jumpsAway_eq, movesTo.normals, List.any_map, Bool.eq_iff_iff,
    List.any_eq_true, List.any_eq_true]
  refine exists_congr fun edge => and_congr_right fun member => ?_
  have target := target_mem_addresses closed listed (mem_splitEdges.mpr (Or.inl member))
  obtain ⟨there, found⟩ := (AddressMap.mem_addresses _ _).mp target
  obtain ⟨movedThere, movedFound, thereMovesTo⟩ := moves.blocks found
  obtain ⟨function, functionFound, parent⟩ := laid.exists_parent listed
  obtain ⟨otherFunction, otherFunctionFound, otherParent⟩ :=
    laid.exists_parent (AddressMap.mem_contents_of_getElem? found)
  have same : move otherFunction.address = move function.address ↔
      otherFunction.address = function.address :=
    ⟨moves.blocks_inj (moves.entries (AddressMap.mem_addresses_of_getElem? otherFunctionFound))
      (moves.entries (AddressMap.mem_addresses_of_getElem? functionFound)), congrArg move⟩
  simp only [Function.comp_apply, Edge.moved, movedFound, found, thereMovesTo.parent,
    movesTo.parent, otherParent, parent, Option.map_some]
  rw [bne_iff_ne, bne_iff_ne, Ne, Ne, Option.some.injEq, Option.some.injEq, same]

/-- A block that moved with its graph has the same flags. -/
theorem flags_eq (moves : MovesTo move keepAddresses graph other) (laid : graph.Laid)
    (closed : graph.danglingEdges = []) (listed : block ∈ graph.blockList)
    (movesTo : block.MovesTo move keepAddresses moved) (multi : Bool) :
    BlockFlags.ofBlock other moved multi = BlockFlags.ofBlock graph block multi := by
  obtain ⟨function, found, parent⟩ := laid.exists_parent listed
  have call : moved.hasCall = block.hasCall := by
    rw [hasCall_eq_not_isEmpty, hasCall_eq_not_isEmpty, movesTo.calls, List.isEmpty_map]
  have entry : moved.isEntry = block.isEntry := by
    have homeMember := moves.entries (AddressMap.mem_addresses_of_getElem? found)
    rw [Block.isEntry, Block.isEntry, movesTo.parent, movesTo.address, parent, Bool.eq_iff_iff,
      beq_iff_eq, beq_iff_eq, Option.map_some, Option.some.injEq, Option.some.injEq]
    exact ⟨moves.blocks_inj homeMember (laid.address_mem listed), congrArg move⟩
  have external : BlockFlags.inExternal other moved = BlockFlags.inExternal graph block := by
    obtain ⟨movedFunction, movedFound, isExternal, _⟩ := moves.functions found
    simp only [BlockFlags.inExternal, movesTo.parent, parent, Option.map_some, Option.bind_some,
      movedFound, found, isExternal]
  rw [BlockFlags.ofBlock, call, entry, external, moves.jumpsAway_eq laid closed listed movesTo]
  rfl

/-- A block that moved with its graph contributes the same row. -/
theorem plainRow_eq (moves : MovesTo move keepAddresses graph other) (laid : graph.Laid)
    (closed : graph.danglingEdges = []) (listed : block ∈ graph.blockList)
    (movesTo : block.MovesTo move keepAddresses moved) :
    other.plainRow keepAddresses moved = graph.plainRow keepAddresses block := by
  have calls : other.callRanks moved = graph.callRanks block := by
    rw [callRanks, movesTo.calls]
    exact moves.ranks_eq closed listed fun edge member => mem_splitEdges.mpr (Or.inr member)
  have normals : other.normalRanks moved = graph.normalRanks block := by
    rw [normalRanks, movesTo.normals]
    exact moves.ranks_eq closed listed fun edge member => mem_splitEdges.mpr (Or.inl member)
  have lines : (if keepAddresses then moved.signedLines else []) =
      if keepAddresses then block.signedLines else [] := by
    cases keepAddresses with
    | false => rfl
    | true =>
      rw [if_pos rfl, if_pos rfl, Block.signedLines, Block.hasLineAddresses,
        movesTo.lineAddresses rfl, movesTo.lines]
      rfl
  have address : (if keepAddresses then (moved.address.toNat : Int) else 0) =
      if keepAddresses then (block.address.toNat : Int) else 0 := by
    cases keepAddresses with
    | false => rfl
    | true => rw [movesTo.address, moves.kept rfl]
  rw [plainRow, calls, normals, moves.flags_eq laid closed listed movesTo, lines, address,
    movesTo.lines, movesTo.metadata, moves.parentRank_eq laid listed movesTo]
  rfl

/-! ### Columns -/

theorem numberFunctions_eq (moves : MovesTo move keepAddresses graph other) :
    Compact.numberFunctions other.functionList = Compact.numberFunctions graph.functionList := by
  have names : Compact.namesOf other.functionList = Compact.namesOf graph.functionList := by
    rw [Compact.namesOf, moves.names]
    exact Compact.assignedNames_of_nodup (Compact.nodup_namesOf _)
      fun _ _ => Std.ExtTreeMap.not_mem_empty
  rw [Compact.numberFunctions_eq, names, Compact.numberFunctions_eq]

/-- A graph that moved has the same columns. -/
theorem columnsOf_eq (moves : MovesTo move keepAddresses graph other) (laid : graph.Laid)
    (closed : graph.danglingEdges = []) (pool : Pool) (store : TokenStore) :
    Compact.columnsOf pool other store keepAddresses =
      Compact.columnsOf pool graph store keepAddresses := by
  have lines : other.blockList.map Block.lines = graph.blockList.map Block.lines := by
    refine AddressMap.map_contents_moved moves.blockAddresses fun found => ?_
    obtain ⟨moved, there, movesTo⟩ := moves.blocks found
    exact ⟨moved, there, movesTo.lines⟩
  have rows : other.blockList.map (other.plainRow keepAddresses) =
      graph.blockList.map (graph.plainRow keepAddresses) := by
    refine AddressMap.map_contents_moved moves.blockAddresses fun found => ?_
    obtain ⟨moved, there, movesTo⟩ := moves.blocks found
    exact ⟨moved, there, moves.plainRow_eq laid closed
      (AddressMap.mem_contents_of_getElem? found) movesTo⟩
  have metadata : other.functionList.map Function.metadata =
      graph.functionList.map Function.metadata := by
    refine AddressMap.map_contents_moved moves.functionAddresses fun found => ?_
    obtain ⟨moved, there, _, same⟩ := moves.functions found
    exact ⟨moved, there, same⟩
  have count : other.functionCount = graph.functionCount := by
    have lengths := congrArg List.length moves.functionAddresses
    rwa [List.length_map, AddressMap.length_addresses, AddressMap.length_addresses] at lengths
  unfold Compact.columnsOf
  rw [List.flatMap_def, lines, ← List.flatMap_def, rows]
  unfold Compact.ofRows
  rw [moves.numberFunctions_eq, metadata, count, moves.normalizer, moves.metadata]

/-! ### Rewritten lines and signed addresses -/

/-- Two graphs one of which moved may be rewritten alike. -/
theorem of_rewrites {rewrite : String → String} {next nextOther : Graph}
    (moves : MovesTo move keepAddresses graph other) (rewrites : graph.Rewrites rewrite next)
    (otherRewrites : other.Rewrites rewrite nextOther)
    (normalizer : nextOther.normalizer = next.normalizer) :
    MovesTo move keepAddresses next nextOther where
  kept := moves.kept
  normalizer := normalizer
  metadata := by rw [rewrites.metadata, otherRewrites.metadata, moves.metadata]
  entries := by
    rw [rewrites.functions, rewrites.addresses]
    exact moves.entries
  functionAddresses := by
    rw [rewrites.functions, otherRewrites.functions]
    exact moves.functionAddresses
  blockAddresses := by
    rw [rewrites.addresses, otherRewrites.addresses]
    exact moves.blockAddresses
  names := by
    rw [functionList, otherRewrites.functions, functionList, rewrites.functions]
    exact moves.names
  functions := by
    rw [rewrites.functions, otherRewrites.functions]
    exact moves.functions
  blocks {address block} found := by
    rw [rewrites.getElem?_blocks, Option.map_eq_some_iff] at found
    obtain ⟨old, oldFound, rfl⟩ := found
    obtain ⟨moved, movedFound, movesTo⟩ := moves.blocks oldFound
    rw [otherRewrites.getElem?_blocks, movedFound]
    exact ⟨_, rfl, movesTo.address, movesTo.parent, congrArg (List.map rewrite) movesTo.lines,
      movesTo.metadata, movesTo.lineAddresses, movesTo.normals, movesTo.calls⟩

theorem signed (moves : MovesTo move true graph other)
    (signed : ∀ block ∈ graph.blockList, block.Signed) :
    ∀ block ∈ other.blockList, block.Signed := by
  intro block listed
  obtain ⟨address, found⟩ := (AddressMap.mem_contents _ _).mp listed
  have member := AddressMap.mem_addresses_of_getElem? found
  rw [moves.blockAddresses] at member
  obtain ⟨home, homeMember, rfl⟩ := List.mem_map.mp member
  obtain ⟨old, oldFound⟩ := (AddressMap.mem_addresses _ _).mp homeMember
  obtain ⟨moved, movedFound, movesTo⟩ := moves.blocks oldFound
  obtain rfl := Option.some.inj (found.symm.trans movedFound)
  have oldSigned := signed old (AddressMap.mem_contents_of_getElem? oldFound)
  refine ⟨?_, ?_⟩
  · rw [movesTo.address, moves.kept rfl]
    exact oldSigned.own
  · rw [movesTo.lineAddresses rfl]
    exact oldSigned.lines

end Graph.MovesTo

end FlowGraph
