/-
This file proves what comes of taking a graph apart into its functions and
adding them to a graph without functions, where blocks may be changed on the
way. As no block is lost and none is met twice, the check of the batch finds
nothing to refuse, and the tables are those of the graph with its blocks
changed. What is left is wiring, and that does nothing to a graph that is sound
already.
-/

import FlowGraph.Proofs.Expanded
import FlowGraph.Proofs.Incremental

namespace FlowGraph

/-- Tables are equal if the same is found in them. -/
theorem AddressMap.eq_of_found {Content : Type} {left right : AddressMap Content}
    (same : ∀ (address : Address) (content : Content),
      left[address]? = some content ↔ right[address]? = some content) : left = right :=
  Std.ExtTreeMap.ext_getElem? fun address => Option.ext fun content => same address content

namespace Graph

variable {graph : Graph} {change : Block → Block}

/-! ### Functions with changed blocks -/

theorem laid_bare (graph : Graph) : graph.bare.Laid := sound_of_empty.toLaid

theorem getElem?_functions_bare (graph : Graph) (address : Address) :
    graph.bare.functions[address]? = none := Std.ExtTreeMap.getElem?_empty

theorem getElem?_blocks_bare (graph : Graph) (address : Address) :
    graph.bare.blocks[address]? = none := Std.ExtTreeMap.getElem?_empty

/-- The functions of a graph as a batch, their blocks changed. -/
def drafts (graph : Graph) (change : Block → Block) : List FunctionDraft :=
  graph.functionList.map fun function =>
    ⟨some function.address, function.name, function.isExternal, function.metadata,
      (graph.blocksOf function).map change⟩

/-- The graph with changed blocks, which stay with their functions, without a store and an index. -/
def changed (graph : Graph) (change : Block → Block) : Graph :=
  { graph with
    blocks := graph.blocks.map fun _ block => { change block with parent := block.parent }
    tokens := none
    index := none }

/-- Whether blocks of a graph can be changed without being refused. -/
structure Replaceable (graph : Graph) (change : Block → Block) : Prop where
  address : ∀ block ∈ graph.blockList, (change block).address = block.address
  matchesLines : ∀ block ∈ graph.blockList, MatchesLines (change block)
  ownEdges : ∀ block ∈ graph.blockList, (change block).ListsOwnEdges

theorem blocks_drafts (graph : Graph) (change : Block → Block) :
    (graph.drafts change).flatMap FunctionDraft.blocks =
      (graph.functionList.flatMap graph.blocksOf).map change := by
  rw [drafts, List.flatMap_map, List.map_flatMap]

theorem Laid.mem_blocks_drafts (laid : graph.Laid) {block : Block} :
    block ∈ (graph.drafts change).flatMap FunctionDraft.blocks ↔
      ∃ old ∈ graph.blockList, change old = block := by
  rw [blocks_drafts, (laid.flatMap_blocksOf_perm.map change).mem_iff, List.mem_map]

/-- Without its functions, a graph admits them. -/
theorem Laid.admits_drafts (laid : graph.Laid) (replaceable : graph.Replaceable change) :
    graph.bare.Admits (graph.drafts change) (graph.functionList.map Function.address) where
  resolved := by
    rw [drafts, List.map_map, List.map_map]
    rfl
  functionsFree address _ := getElem?_functions_bare graph address
  functionsDistinct := List.pairwise_map.mpr laid.functionList_distinct
  blocksFree block _ := getElem?_blocks_bare graph block.address
  blocksDistinct := by
    have addresses : graph.blockList.map (Block.address ∘ change) =
        graph.blockList.map Block.address :=
      List.map_congr_left fun block listed => replaceable.address block listed
    have distinct := graph.blocks.nodup_addresses
    rw [laid.addresses_blocks, ← addresses, ← List.map_map] at distinct
    rw [blocks_drafts]
    exact ((laid.flatMap_blocksOf_perm.map change).map Block.address).nodup_iff.mpr distinct
  matchesLines block member := by
    obtain ⟨old, listed, rfl⟩ := laid.mem_blocks_drafts.mp member
    exact replaceable.matchesLines old listed

/-- The functions are placed as they were. -/
theorem Laid.placedFunctions_drafts (laid : graph.Laid) (replaceable : graph.Replaceable change) :
    placedFunctions (graph.functionList.map Function.address) (graph.drafts change) =
      graph.functionList := by
  rw [placedFunctions, drafts, List.zip_map', List.map_map]
  refine (List.map_congr_left fun function listed => ?_).trans (List.map_id _)
  have found := laid.mem_functionList.mp listed
  have addresses : (graph.blocksOf function).map (Block.address ∘ change) = function.blocks := by
    rw [← laid.map_address_blocksOf found]
    refine List.map_congr_left fun block own => replaceable.address block ?_
    obtain ⟨address, _, there⟩ := mem_blocksOf.mp own
    exact AddressMap.mem_contents_of_getElem? there
  simp only [Function.comp_apply, FunctionDraft.placed, List.map_map, addresses]
  rfl

/-- The blocks are adopted by the functions that they came from. -/
theorem Laid.mem_adoptedBlocks_drafts (laid : graph.Laid) {block : Block} :
    block ∈ adoptedBlocks (graph.functionList.map Function.address) (graph.drafts change) ↔
      ∃ old ∈ graph.blockList, { change old with parent := old.parent } = block := by
  have whole : adoptedBlocks (graph.functionList.map Function.address) (graph.drafts change) =
      (graph.functionList.flatMap graph.blocksOf).map fun old =>
        { change old with parent := old.parent } := by
    rw [adoptedBlocks, drafts, List.zip_map', List.flatMap_map, List.map_flatMap]
    refine List.flatMap_congr fun function listed => ?_
    rw [FunctionDraft.adopted, List.map_map]
    refine List.map_congr_left fun old own => ?_
    rw [laid.parent_of_mem_blocksOf (laid.mem_functionList.mp listed) own]
    rfl
  rw [whole, (laid.flatMap_blocksOf_perm.map _).mem_iff, List.mem_map]

theorem getElem?_changed (graph : Graph) (change : Block → Block) (address : Address) :
    (graph.changed change).blocks[address]? =
      graph.blocks[address]?.map fun block => { change block with parent := block.parent } :=
  Std.ExtTreeMap.getElem?_map

/-- Before it is wired, a graph put together again is the graph with its blocks changed. -/
theorem Laid.placeAll_drafts (laid : graph.Laid) (replaceable : graph.Replaceable change) :
    graph.bare.placeAll (graph.functionList.map Function.address) (graph.drafts change) =
      graph.changed change := by
  have admitted := laid.admits_drafts replaceable
  have functions : (graph.bare.placeAll (graph.functionList.map Function.address)
      (graph.drafts change)).functions = graph.functions := by
    refine AddressMap.eq_of_found fun address function => ?_
    rw [admitted.getElem?_functions, laid.placedFunctions_drafts replaceable,
      getElem?_functions_bare]
    constructor
    · rintro (⟨listed, rfl⟩ | ⟨_, none⟩)
      · exact laid.mem_functionList.mp listed
      · cases none
    · exact fun found => Or.inl ⟨AddressMap.mem_contents_of_getElem? found, laid.functionKey found⟩
  have blocks : (graph.bare.placeAll (graph.functionList.map Function.address)
      (graph.drafts change)).blocks = (graph.changed change).blocks := by
    refine AddressMap.eq_of_found fun address block => ?_
    rw [admitted.getElem?_blocks, laid.mem_adoptedBlocks_drafts, getElem?_blocks_bare,
      getElem?_changed, Option.map_eq_some_iff]
    constructor
    · rintro (⟨⟨old, listed, rfl⟩, rfl⟩ | ⟨_, none⟩)
      · refine ⟨old, ?_, rfl⟩
        dsimp only
        rw [replaceable.address old listed]
        exact laid.mem_blockList.mp listed
      · cases none
    · rintro ⟨old, found, rfl⟩
      have listed := AddressMap.mem_contents_of_getElem? found
      refine Or.inl ⟨⟨old, listed, rfl⟩, ?_⟩
      exact (replaceable.address old listed).trans (laid.blockKey found)
  rw [placeAll_eq] at functions blocks ⊢
  dsimp only at functions blocks
  rw [functions, blocks]
  rfl

/-- A graph that is taken apart and put together again is the graph with its blocks changed, and
then wired. -/
theorem Laid.addFunctions_drafts (laid : graph.Laid) (replaceable : graph.Replaceable change)
    (override : Bool) :
    graph.bare.addFunctions (graph.drafts change) override = .ok (graph.changed change).wire := by
  refine addFunctions_eq_ok_iff.mpr ⟨_, laid.admits_drafts replaceable, ?_⟩
  exact congrArg Graph.wire (laid.placeAll_drafts replaceable)

/-- The graph with its blocks changed is laid out. -/
theorem Laid.changed (laid : graph.Laid) (replaceable : graph.Replaceable change) :
    (graph.changed change).Laid := by
  rw [← laid.placeAll_drafts replaceable]
  refine (laid_bare graph).placeAll (laid.admits_drafts replaceable)
    fun draft member block own => ?_
  obtain ⟨old, listed, rfl⟩ :=
    laid.mem_blocks_drafts.mp (List.mem_flatMap.mpr ⟨draft, member, own⟩)
  exact replaceable.ownEdges old listed

/-! ### Wiring a sound graph -/

/-- Wiring leaves a sound graph as it is, because both ends of every edge list it already. -/
theorem Sound.wire_eq (sound : graph.Sound) : graph.wire = graph := by
  have blocks : graph.wire.blocks = graph.blocks := by
    refine Std.ExtTreeMap.ext_getElem? fun address => ?_
    rw [wire, getElem?_foldl_connect]
    cases found : graph.blocks[address]? with
    | none => rfl
    | some block =>
      have listed := AddressMap.mem_contents_of_getElem? found
      have out : (graph.listedEdges.filter fun edge =>
          graph.spans edge && edge.source == address) ⊆ block.edgesOut := fun edge member => by
        obtain ⟨edgeListed, ends⟩ := List.mem_filter.mp member
        refine (sound.mem_edgesOut_iff listed).mpr ⟨edgeListed, ?_⟩
        rw [sound.blockKey found]
        exact beq_iff_eq.mp (Bool.and_eq_true_iff.mp ends).2
      have within : (graph.listedEdges.filter fun edge =>
          graph.spans edge && edge.target == address) ⊆ block.edgesIn := fun edge member => by
        obtain ⟨edgeListed, ends⟩ := List.mem_filter.mp member
        refine (sound.mem_edgesIn_iff listed).mpr ⟨edgeListed, ?_⟩
        rw [sound.blockKey found]
        exact beq_iff_eq.mp (Bool.and_eq_true_iff.mp ends).2
      rw [Option.map_some, connected, Block.foldl_insertEdge_of_subset out,
        Block.foldl_insertEdge_of_subset within]
  rw [wire] at blocks ⊢
  rw [foldl_connect_eq, blocks]

end Graph

end FlowGraph
