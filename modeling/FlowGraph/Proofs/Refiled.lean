/-
This file says what a graph that was read from a snapshot has of it. Functions,
blocks and records all come through, or reading fails. Of an edge that a block
lists only the far end and the kind are read: the near end is the block itself.
An edge that stands in the lists of its own ends is read as it is, and comes back
in them, once in each. An edge that is filed elsewhere is read as another one.
-/

import FlowGraph.Proofs.Incremental
import FlowGraph.Proofs.Saved

namespace FlowGraph

/-! ### Blocks -/

namespace BlockSnapshot

/-- A block as a file holds it, without its edges. -/
def withoutEdges (snapshot : BlockSnapshot) : BlockSnapshot :=
  { snapshot with edgesOut := [], edgesIn := [] }

/-- An edge that stands in the lists of a block, and the edge that it is read as. -/
structure Filing where
  listed : Edge
  taken : Edge

/-- The edges that leave a block according to its list, read as edges that leave it. -/
def filingsOut (snapshot : BlockSnapshot) : List Filing :=
  snapshot.edgesOut.map fun edge => ⟨edge, ⟨snapshot.address, edge.target, edge.kind⟩⟩

/-- The edges that enter a block according to its list, read as edges that enter it. -/
def filingsIn (snapshot : BlockSnapshot) : List Filing :=
  snapshot.edgesIn.map fun edge => ⟨edge, ⟨edge.source, snapshot.address, edge.kind⟩⟩

/-- What the lists of a block are read as. -/
def filings (snapshot : BlockSnapshot) : List Filing := snapshot.filingsOut ++ snapshot.filingsIn

/-- A block takes over everything from a file but the near ends of its edges. -/
theorem toBlock_eq (snapshot : BlockSnapshot) : snapshot.toBlock =
    { address := snapshot.address
      labels := snapshot.labels
      lines := snapshot.lines
      lineAddresses := snapshot.lineAddresses
      metadata := snapshot.metadata
      edgesOut := (snapshot.filingsOut.map Filing.taken).foldl Block.insertEdge []
      edgesIn := (snapshot.filingsIn.map Filing.taken).foldl Block.insertEdge []
      parent := none } := by
  have leaving (block : Block) :
      snapshot.edgesOut.foldl (fun block edge => block.addOut edge.target edge.kind) block =
        { block with
          edgesOut := (snapshot.edgesOut.map fun edge =>
            ⟨block.address, edge.target, edge.kind⟩).foldl Block.insertEdge block.edgesOut } := by
    have listed :=
      Block.foldl_addOut (snapshot.edgesOut.map fun edge => (edge.target, edge.kind)) block
    rwa [List.foldl_map, List.map_map] at listed
  have entering (block : Block) :
      snapshot.edgesIn.foldl (fun block edge => block.addIn edge.source edge.kind) block =
        { block with
          edgesIn := (snapshot.edgesIn.map fun edge =>
            ⟨edge.source, block.address, edge.kind⟩).foldl Block.insertEdge block.edgesIn } := by
    have listed :=
      Block.foldl_addIn (snapshot.edgesIn.map fun edge => (edge.source, edge.kind)) block
    rwa [List.foldl_map, List.map_map] at listed
  rw [toBlock, leaving, entering, filingsOut, filingsIn, List.map_map, List.map_map]
  rfl

theorem mem_edges_toBlock {snapshot : BlockSnapshot} {edge : Edge} :
    edge ∈ snapshot.toBlock.edgesOut ++ snapshot.toBlock.edgesIn ↔
      edge ∈ snapshot.filings.map Filing.taken := by
  rw [toBlock_eq, List.mem_append, Block.mem_foldl_insertEdge, Block.mem_foldl_insertEdge, filings,
    List.map_append, List.mem_append, or_iff_right List.not_mem_nil, or_iff_right List.not_mem_nil]

end BlockSnapshot

open BlockSnapshot (Filing)

/-! ### Functions -/

/-- A function as a file holds it, without the edges of its blocks. -/
def FunctionSnapshot.withoutEdges (snapshot : FunctionSnapshot) : FunctionSnapshot :=
  { snapshot with blocks := snapshot.blocks.map BlockSnapshot.withoutEdges }

namespace Snapshot

variable {snapshot : Snapshot} {graph : Graph} {function : FunctionSnapshot}

/-- What the lists of all blocks are read as. -/
def filings (snapshot : Snapshot) : List Filing :=
  snapshot.functions.flatMap fun function => function.blocks.flatMap BlockSnapshot.filings

/-- The edges that any block lists. -/
def listedEdges (snapshot : Snapshot) : List Edge := snapshot.filings.map Filing.listed

theorem extends_of_toGraph (read : snapshot.toGraph = .ok graph) :
    Graph.Extends { Graph.withMetadata snapshot.metadata with normalizer := snapshot.normalizer }
      (snapshot.functions.map FunctionSnapshot.toDraft) graph :=
  Graph.extends_of_addFunctions read

/-- A block of a file is there afterwards, with the same contents but for its edges. -/
theorem exists_block_of_toGraph (read : snapshot.toGraph = .ok graph)
    (member : function ∈ snapshot.functions) {own : BlockSnapshot} (listed : own ∈ function.blocks) :
    ∃ block, graph.blocks[own.address]? = some block ∧
      (BlockSnapshot.ofBlock block).withoutEdges = own.withoutEdges := by
  have adopted : { own.toBlock with parent := some function.address } ∈
      function.toDraft.adopted function.address :=
    List.mem_map_of_mem (List.mem_map_of_mem listed)
  have bare := ((extends_of_toGraph read).blocks own.address _).mpr (Or.inr
    ⟨_, List.mem_map_of_mem member, _, rfl, _, adopted, by rw [BlockSnapshot.toBlock_eq], rfl⟩)
  obtain ⟨block, found, same⟩ := Option.map_eq_some_iff.mp bare
  refine ⟨block, found, ?_⟩
  have contents : (BlockSnapshot.ofBlock block).withoutEdges =
      BlockSnapshot.ofBlock block.withoutEdges := rfl
  rw [contents, same, BlockSnapshot.toBlock_eq]
  rfl

/-- A function of a file comes back, edges apart. -/
theorem ofFunction_of_toGraph (read : snapshot.toGraph = .ok graph)
    (member : function ∈ snapshot.functions) :
    (FunctionSnapshot.ofFunction graph (function.toDraft.placed function.address)).withoutEdges =
      function.withoutEdges := by
  have addresses : (function.toDraft.placed function.address).blocks =
      function.blocks.map BlockSnapshot.address := by
    rw [FunctionDraft.placed, FunctionSnapshot.toDraft, List.map_map]
    refine List.map_congr_left fun own _ => ?_
    rw [Function.comp_apply, BlockSnapshot.toBlock_eq]
  have blocks : ((graph.blocksOf (function.toDraft.placed function.address)).map
      BlockSnapshot.ofBlock).map BlockSnapshot.withoutEdges =
        function.blocks.map BlockSnapshot.withoutEdges := by
    rw [Graph.blocksOf, addresses, List.filterMap_map, List.map_map, List.map_filterMap,
      ← List.filterMap_eq_map]
    refine List.filterMap_congr fun own listed => ?_
    obtain ⟨block, found, same⟩ := exists_block_of_toGraph read member listed
    rw [Function.comp_apply, found, Option.map_some, Function.comp_apply, same]
    rfl
  rw [FunctionSnapshot.withoutEdges, FunctionSnapshot.ofFunction, blocks]
  rfl

/-- The functions of the graph are those of the file. -/
theorem functionList_of_toGraph (read : snapshot.toGraph = .ok graph) :
    graph.functionList.Perm
      (snapshot.functions.map fun function => function.toDraft.placed function.address) := by
  obtain ⟨addresses, admitted, rfl⟩ := Graph.addFunctions_eq_ok_iff.mp read
  have homes : addresses = snapshot.functions.map FunctionSnapshot.address := by
    rw [← admitted.homes_eq, Graph.homes, List.filterMap_map, ← List.filterMap_eq_map]
    rfl
  have placed := admitted.functionList_perm
  rw [Graph.placedFunctions, homes, List.zip_map', List.map_map] at placed
  rw [Graph.wire, Graph.foldl_connect_eq]
  rw [homes]
  exact placed

/-- The edges of the graph are those that the lists of the file are read as. -/
theorem mem_listedEdges_of_toGraph (read : snapshot.toGraph = .ok graph) {edge : Edge} :
    edge ∈ graph.listedEdges ↔ edge ∈ snapshot.filings.map Filing.taken := by
  have nothing : edge ∉ Graph.listedEdges
      { Graph.withMetadata snapshot.metadata with normalizer := snapshot.normalizer } :=
    List.not_mem_nil
  rw [(extends_of_toGraph read).edges, or_iff_right nothing, filings]
  simp only [List.map_flatMap, List.flatMap_map, FunctionDraft.listedEdges,
    FunctionSnapshot.toDraft, List.mem_flatMap, BlockSnapshot.mem_edges_toBlock]

/-! ### The snapshot of a sound graph -/

theorem listedEdges_ofGraph (sound : graph.Sound) {edge : Edge} :
    edge ∈ (ofGraph graph).listedEdges ↔ edge ∈ graph.listedEdges := by
  have own (block : Block) : (BlockSnapshot.ofBlock block).filings.map Filing.listed =
      block.edgesOut ++ block.edgesIn := by
    simp only [BlockSnapshot.filings, BlockSnapshot.filingsOut, BlockSnapshot.filingsIn,
      BlockSnapshot.ofBlock, List.map_append, List.map_map, Function.comp_def, List.map_id']
  have all : (ofGraph graph).listedEdges = (graph.functionList.flatMap graph.blocksOf).flatMap
      fun block => block.edgesOut ++ block.edgesIn := by
    simp only [listedEdges, filings, ofGraph, FunctionSnapshot.ofFunction, List.flatMap_map,
      List.map_flatMap, own, List.flatMap_assoc]
  rw [all, Graph.listedEdges]
  exact (sound.toLaid.flatMap_blocksOf_perm.flatMap_right _).mem_iff

/-! ### What comes back -/

/-- Whether a block in a file lists exactly the edges of a graph that leave it and those that enter
it, each of them once. -/
structure ListsEdgesOf (graph : Graph) (block : BlockSnapshot) : Prop where
  once : block.edgesOut.Nodup ∧ block.edgesIn.Nodup
  leaving : ∀ edge, edge ∈ block.edgesOut ↔
    edge ∈ graph.listedEdges ∧ edge.source = block.address
  entering : ∀ edge, edge ∈ block.edgesIn ↔
    edge ∈ graph.listedEdges ∧ edge.target = block.address

theorem listsEdgesOf_ofGraph (sound : graph.Sound) :
    ∀ function ∈ (ofGraph graph).functions, ∀ block ∈ function.blocks, ListsEdgesOf graph block := by
  intro function member own listed
  obtain ⟨home, _, rfl⟩ := List.mem_map.mp member
  obtain ⟨block, inFunction, rfl⟩ := List.mem_map.mp listed
  obtain ⟨address, _, found⟩ := Graph.mem_blocksOf.mp inFunction
  have inGraph : block ∈ graph.blockList := AddressMap.mem_contents_of_getElem? found
  have edges := sound.ownEdges found
  exact ⟨⟨edges.nodupOut, edges.nodupIn⟩, fun _ => sound.mem_edgesOut_iff inGraph,
    fun _ => sound.mem_edgesIn_iff inGraph⟩

/-- What of a snapshot comes back from the graph that was read from it: all of its records,
functions and blocks, and the edges that its lists are read as, on both of their ends. They are the
listed ones if each edge stands in the lists of its own ends; otherwise exactly if what is read
differently stands properly in another place, and what it is read as is listed anyway. -/
structure ComesBack (snapshot : Snapshot) (graph : Graph) : Prop where
  normalizer : (ofGraph graph).normalizer = snapshot.normalizer
  metadata : (ofGraph graph).metadata = snapshot.metadata
  functions : ((ofGraph graph).functions.map FunctionSnapshot.withoutEdges).Perm
    (snapshot.functions.map FunctionSnapshot.withoutEdges)
  ascend : ((ofGraph graph).functions.map FunctionSnapshot.address).Pairwise (· < ·)
  edges : ∀ edge, edge ∈ (ofGraph graph).listedEdges ↔
    edge ∈ snapshot.filings.map Filing.taken
  atEnds : ∀ function ∈ (ofGraph graph).functions, ∀ block ∈ function.blocks,
    ListsEdgesOf graph block
  all_of_proper : (∀ filing ∈ snapshot.filings, filing.taken = filing.listed) →
    ∀ edge, edge ∈ (ofGraph graph).listedEdges ↔ edge ∈ snapshot.listedEdges
  all_iff : (∀ edge, edge ∈ (ofGraph graph).listedEdges ↔ edge ∈ snapshot.listedEdges) ↔
    ∀ filing ∈ snapshot.filings, filing.listed ∈ snapshot.filings.map Filing.taken ∧
      filing.taken ∈ snapshot.listedEdges

/-- Whatever snapshot a graph is read from, all of it comes back but for edges that are filed under
a block that is not their own. -/
theorem taken_comes_back (read : snapshot.toGraph = .ok graph) : ComesBack snapshot graph := by
  have sound := sound_toGraph read
  have edges (edge : Edge) : edge ∈ (ofGraph graph).listedEdges ↔
      edge ∈ snapshot.filings.map Filing.taken :=
    (listedEdges_ofGraph sound).trans (mem_listedEdges_of_toGraph read)
  have all_iff : (∀ edge, edge ∈ (ofGraph graph).listedEdges ↔ edge ∈ snapshot.listedEdges) ↔
      ∀ filing ∈ snapshot.filings, filing.listed ∈ snapshot.filings.map Filing.taken ∧
        filing.taken ∈ snapshot.listedEdges := by
    constructor
    · intro all filing member
      exact ⟨(edges _).mp ((all _).mpr (List.mem_map_of_mem member)),
        (all _).mp ((edges _).mpr (List.mem_map_of_mem member))⟩
    · intro both edge
      rw [edges]
      constructor
      · intro member
        obtain ⟨filing, there, rfl⟩ := List.mem_map.mp member
        exact (both filing there).2
      · intro member
        obtain ⟨filing, there, rfl⟩ := List.mem_map.mp member
        exact (both filing there).1
  refine
    { normalizer := (extends_of_toGraph read).records.1
      metadata := (extends_of_toGraph read).records.2
      functions := ?_
      ascend := ?_
      edges
      atEnds := listsEdgesOf_ofGraph sound
      all_of_proper := fun proper => all_iff.mpr fun filing member => ⟨?_, ?_⟩
      all_iff }
  · have back := ((functionList_of_toGraph read).map (FunctionSnapshot.ofFunction graph)).map
      FunctionSnapshot.withoutEdges
    refine back.trans (List.Perm.of_eq ?_)
    rw [List.map_map, List.map_map]
    exact List.map_congr_left fun function member => ofFunction_of_toGraph read member
  · have addresses : (ofGraph graph).functions.map FunctionSnapshot.address =
        graph.functions.addresses := by
      rw [sound.addresses_functions, ofGraph, List.map_map]
      rfl
    rw [addresses]
    exact graph.functions.addresses_ascend
  · exact proper filing member ▸ List.mem_map_of_mem member
  · exact (proper filing member).symm ▸ List.mem_map_of_mem member

/-- The open loop comes back from its snapshot, whose edges stand in the lists of their own ends. -/
theorem openGraph_taken_comes_back : ∃ next, (ofGraph Graph.openGraph).toGraph = .ok next ∧
    (∀ filing ∈ (ofGraph Graph.openGraph).filings, filing.taken = filing.listed) ∧
    ComesBack (ofGraph Graph.openGraph) next := by
  have read := Graph.reachable_openGraph.sound.toGraph_ofGraph
  exact ⟨_, read, by decide, taken_comes_back read⟩

/-- A function with two blocks, the first of which claims that an edge leaves it that leaves the
other one. -/
def misfiled : Snapshot where
  normalizer := none
  metadata := ∅
  functions := [⟨16, none, false, ∅,
    [⟨16, ∅, [], [], ∅, [⟨32, 16, .normal⟩], []⟩, ⟨32, ∅, [], [], ∅, [], []⟩]⟩]

/-- The edge that is filed under the wrong block is read as a loop of that block, and lost. -/
theorem misfiled_loses_edge : ∃ graph, misfiled.toGraph = .ok graph ∧
    misfiled.listedEdges = [⟨32, 16, .normal⟩] ∧
    (ofGraph graph).listedEdges = [⟨16, 16, .normal⟩, ⟨16, 16, .normal⟩] := by
  have read : misfiled.toGraph.map (fun graph => (ofGraph graph).listedEdges) =
      .ok [⟨16, 16, .normal⟩, ⟨16, 16, .normal⟩] := by decide +kernel
  obtain ⟨graph, succeeds, edges⟩ := Outcome.map_eq_ok_iff.mp read
  exact ⟨graph, succeeds, by decide, edges⟩

end Snapshot

end FlowGraph
