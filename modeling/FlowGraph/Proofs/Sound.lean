/-
This file defines when a graph is sound. Its blocks and functions stand under
their own addresses, each block belongs to one function, which lists it once,
edge lists hold the edges of their block, line addresses match lines, and an
index that was built finds every address of every block. That much is true of
a graph that is laid out but not wired yet. In a sound graph, moreover, both
ends of a listed edge list it, as far as they are in the graph.

Wiring turns a graph that is laid out into a sound one. The argument is that an
edge comes into a list only by being connected, which puts it into the lists of
both ends, and that an edge with one end in the graph is listed there from the
beginning.
-/

import FlowGraph.Proofs.Wiring

namespace FlowGraph

/-! ### What stays the same while edges and lines change -/

/-- Whether an address is that of a block or of one of its lines. -/
def Block.Holds (block : Block) (address : Address) : Prop :=
  address = block.address ∨ address ∈ block.lineAddresses

/-- What of a block neither wiring nor normalization changes. -/
def Block.frame (block : Block) : Address × Option Address × List Address × Nat :=
  (block.address, block.parent, block.lineAddresses, block.lines.length)

theorem Block.frame_eq_iff {first second : Block} :
    first.frame = second.frame ↔ first.address = second.address ∧
      first.parent = second.parent ∧ first.lineAddresses = second.lineAddresses ∧
      first.lines.length = second.lines.length := by
  simp only [Block.frame, Prod.mk.injEq]

theorem Block.hasLineAddresses_iff (block : Block) :
    block.hasLineAddresses = true ↔ block.lineAddresses ≠ [] := by
  rw [Block.hasLineAddresses, Bool.not_eq_true', List.isEmpty_eq_false_iff]

namespace Graph

variable {graph : Graph}

/-! ### Sound graphs -/

/-- Whether an index finds every address of every block, and finds a block that holds it. -/
structure IndexedBy (graph : Graph) (index : AddressMap Address) : Prop where
  holds : ∀ {address home : Address}, index[address]? = some home →
    ∃ block, graph.blocks[home]? = some block ∧ block.Holds address
  finds : ∀ {home address : Address} {block : Block}, graph.blocks[home]? = some block →
    block.Holds address → ∃ owner, index[address]? = some owner

/-- Whether the ends of an edge list it, as far as they are in the graph. -/
def ListedAtEnds (graph : Graph) (edge : Edge) : Prop :=
  (∀ source, graph.blocks[edge.source]? = some source → edge ∈ source.edgesOut) ∧
    ∀ target, graph.blocks[edge.target]? = some target → edge ∈ target.edgesIn

/-- Whether a graph is laid out: everything that a sound graph needs but wired edges. -/
structure Laid (graph : Graph) : Prop where
  blockKey : ∀ {address : Address} {block : Block},
    graph.blocks[address]? = some block → block.address = address
  functionKey : ∀ {address : Address} {function : Function},
    graph.functions[address]? = some function → function.address = address
  owner : ∀ {address : Address} {block : Block}, graph.blocks[address]? = some block →
    ∃ home function, block.parent = some home ∧ graph.functions[home]? = some function ∧
      function.blocks.count address = 1
  member : ∀ {home : Address} {function : Function}, graph.functions[home]? = some function →
    ∀ address ∈ function.blocks,
      ∃ block, graph.blocks[address]? = some block ∧ block.parent = some home
  ownEdges : ∀ {address : Address} {block : Block},
    graph.blocks[address]? = some block → block.ListsOwnEdges
  lineAddresses : ∀ {address : Address} {block : Block}, graph.blocks[address]? = some block →
    block.lineAddresses ≠ [] → block.lineAddresses.length = block.lines.length
  indexed : ∀ {index : AddressMap Address}, graph.index = some index → graph.IndexedBy index

/-- Whether a graph is sound: laid out, and with every listed edge at both of its ends. -/
structure Sound (graph : Graph) : Prop extends graph.Laid where
  symmetric : ∀ edge ∈ graph.listedEdges, graph.ListedAtEnds edge

/-! ### Blocks and the functions that list them -/

theorem Laid.addresses_functions (laid : graph.Laid) :
    graph.functions.addresses = graph.functionList.map Function.address :=
  AddressMap.addresses_eq_map_contents laid.functionKey

theorem Laid.addresses_blocks (laid : graph.Laid) :
    graph.blocks.addresses = graph.blockList.map Block.address :=
  AddressMap.addresses_eq_map_contents laid.blockKey

theorem Laid.mem_functionList (laid : graph.Laid) {function : Function} :
    function ∈ graph.functionList ↔ graph.functions[function.address]? = some function :=
  AddressMap.mem_contents_of_keyed laid.functionKey

theorem Laid.mem_blockList (laid : graph.Laid) {block : Block} :
    block ∈ graph.blockList ↔ graph.blocks[block.address]? = some block :=
  AddressMap.mem_contents_of_keyed laid.blockKey

theorem Laid.address_mem (laid : graph.Laid) {block : Block} (listed : block ∈ graph.blockList) :
    block.address ∈ graph.blocks.addresses :=
  AddressMap.mem_addresses_of_getElem? (laid.mem_blockList.mp listed)

/-- Every block belongs to a function. -/
theorem Laid.exists_parent (laid : graph.Laid) {block : Block}
    (listed : block ∈ graph.blockList) : ∃ function : Function,
    graph.functions[function.address]? = some function ∧ block.parent = some function.address := by
  obtain ⟨home, function, parent, found, _⟩ := laid.owner (laid.mem_blockList.mp listed)
  obtain rfl := laid.functionKey found
  exact ⟨function, found, parent⟩

/-- A function lists exactly the blocks whose parent it is. -/
theorem Laid.mem_blocks_iff (laid : graph.Laid) {home : Address} {function : Function}
    (found : graph.functions[home]? = some function) {address : Address} :
    address ∈ function.blocks ↔
      ∃ block, graph.blocks[address]? = some block ∧ block.parent = some home := by
  refine ⟨laid.member found address, ?_⟩
  rintro ⟨block, blockFound, parent⟩
  obtain ⟨owner, owning, ownerParent, owningFound, once⟩ := laid.owner blockFound
  rw [parent, Option.some.injEq] at ownerParent
  rw [← ownerParent, found, Option.some.injEq] at owningFound
  rw [← owningFound] at once
  exact List.count_pos_iff.mp (by rw [once]; exact Nat.one_pos)

theorem Laid.nodup_blocks (laid : graph.Laid) {home : Address} {function : Function}
    (found : graph.functions[home]? = some function) : function.blocks.Nodup := by
  refine List.nodup_iff_count_le_one.mpr fun address => ?_
  by_cases listed : address ∈ function.blocks
  · obtain ⟨block, blockFound, parent⟩ := laid.member found address listed
    obtain ⟨owner, owning, ownerParent, owningFound, once⟩ := laid.owner blockFound
    rw [parent, Option.some.injEq] at ownerParent
    rw [← ownerParent, found, Option.some.injEq] at owningFound
    rw [owningFound]
    exact Nat.le_of_eq once
  · rw [List.count_eq_zero_of_not_mem listed]
    exact Nat.zero_le 1

theorem Laid.functionList_distinct (laid : graph.Laid) :
    graph.functionList.Pairwise fun first second => first.address ≠ second.address := by
  have distinct := graph.functions.nodup_addresses
  rw [laid.addresses_functions] at distinct
  exact List.pairwise_map.mp distinct

/-- The block lists of the functions split the blocks among them. -/
theorem Laid.blocks_partition (laid : graph.Laid) :
    (graph.functionList.flatMap Function.blocks).Perm graph.blocks.addresses := by
  refine (List.perm_ext_iff_of_nodup ?_ graph.blocks.nodup_addresses).mpr fun address => ?_
  · refine List.nodup_flatMap.mpr ⟨fun function listed =>
      laid.nodup_blocks (laid.mem_functionList.mp listed), ?_⟩
    refine laid.functionList_distinct.imp_of_mem
      fun {first second} firstListed secondListed different address inFirst inSecond => ?_
    obtain ⟨block, found, parent⟩ :=
      laid.member (laid.mem_functionList.mp firstListed) address inFirst
    obtain ⟨other, otherFound, otherParent⟩ :=
      laid.member (laid.mem_functionList.mp secondListed) address inSecond
    rw [found, Option.some.injEq] at otherFound
    rw [← otherFound, parent, Option.some.injEq] at otherParent
    exact different otherParent
  · rw [List.mem_flatMap, AddressMap.mem_addresses]
    constructor
    · rintro ⟨function, listed, member⟩
      obtain ⟨block, found, _⟩ := laid.member (laid.mem_functionList.mp listed) address member
      exact ⟨block, found⟩
    · rintro ⟨block, found⟩
      obtain ⟨home, function, parent, owning, _⟩ := laid.owner found
      refine ⟨function, AddressMap.mem_contents_of_getElem? owning, ?_⟩
      exact (laid.mem_blocks_iff owning).mpr ⟨block, found, parent⟩

theorem mem_blocksOf {function : Function} {block : Block} :
    block ∈ graph.blocksOf function ↔
      ∃ address ∈ function.blocks, graph.blocks[address]? = some block :=
  List.mem_filterMap

/-- A function lists the addresses of its blocks. -/
theorem Laid.map_address_blocksOf (laid : graph.Laid) {home : Address} {function : Function}
    (found : graph.functions[home]? = some function) :
    (graph.blocksOf function).map Block.address = function.blocks := by
  rw [blocksOf, List.map_filterMap]
  conv_rhs => rw [← List.filterMap_some (l := function.blocks)]
  refine List.filterMap_congr fun address listed => ?_
  obtain ⟨block, there, _⟩ := laid.member found address listed
  rw [there, Option.map_some, laid.blockKey there]

/-- The parent of a function's block is the function. -/
theorem Laid.parent_of_mem_blocksOf (laid : graph.Laid) {home : Address} {function : Function}
    (found : graph.functions[home]? = some function) {block : Block}
    (own : block ∈ graph.blocksOf function) : block.parent = some home := by
  obtain ⟨address, listed, there⟩ := mem_blocksOf.mp own
  obtain ⟨other, otherThere, parent⟩ := laid.member found address listed
  rw [there, Option.some.injEq] at otherThere
  exact otherThere ▸ parent

/-- The blocks of the functions in turn are all blocks. -/
theorem Laid.flatMap_blocksOf_perm (laid : graph.Laid) :
    (graph.functionList.flatMap graph.blocksOf).Perm graph.blockList := by
  have split := laid.blocks_partition.filterMap fun address => graph.blocks[address]?
  have all : (graph.blocks.addresses.filterMap fun address => graph.blocks[address]?) =
      graph.blockList := by
    rw [laid.addresses_blocks, List.filterMap_map]
    conv_rhs => rw [← List.filterMap_some (l := graph.blockList)]
    exact List.filterMap_congr fun block listed => laid.mem_blockList.mp listed
  rw [List.filterMap_flatMap, all] at split
  exact split

/-- A block of a sound graph lists the edges that leave it. -/
theorem Sound.mem_edgesOut_iff (sound : graph.Sound) {block : Block}
    (listed : block ∈ graph.blockList) {edge : Edge} :
    edge ∈ block.edgesOut ↔ edge ∈ graph.listedEdges ∧ edge.source = block.address := by
  have found := sound.mem_blockList.mp listed
  constructor
  · intro member
    exact ⟨(mem_listedEdges graph edge).mpr ⟨_, _, found, Or.inl member⟩,
      (sound.ownEdges found).leaves edge member⟩
  · rintro ⟨edgeListed, source⟩
    exact (sound.symmetric edge edgeListed).1 block (source ▸ found)

/-- A block of a sound graph lists the edges that enter it. -/
theorem Sound.mem_edgesIn_iff (sound : graph.Sound) {block : Block}
    (listed : block ∈ graph.blockList) {edge : Edge} :
    edge ∈ block.edgesIn ↔ edge ∈ graph.listedEdges ∧ edge.target = block.address := by
  have found := sound.mem_blockList.mp listed
  constructor
  · intro member
    exact ⟨(mem_listedEdges graph edge).mpr ⟨_, _, found, Or.inr member⟩,
      (sound.ownEdges found).enters edge member⟩
  · rintro ⟨edgeListed, target⟩
    exact (sound.symmetric edge edgeListed).2 block (target ▸ found)

/-! ### Changes of edges and lines -/

theorem exists_of_frame {changed : Graph} (frame : ∀ address : Address,
      (changed.blocks[address]?).map Block.frame = (graph.blocks[address]?).map Block.frame)
    {address : Address} {old : Block} (found : graph.blocks[address]? = some old) :
    ∃ block, changed.blocks[address]? = some block ∧ block.frame = old.frame := by
  have same := frame address
  rw [found, Option.map_some, Option.map_eq_some_iff] at same
  exact same

/-- An index stays good if blocks change but for their frames. -/
theorem IndexedBy.of_frame {changed : Graph} {index : AddressMap Address}
    (indexed : graph.IndexedBy index) (frame : ∀ address : Address,
      (changed.blocks[address]?).map Block.frame = (graph.blocks[address]?).map Block.frame) :
    changed.IndexedBy index := by
  refine ⟨fun found => ?_, fun found held => ?_⟩
  · obtain ⟨old, oldFound, held⟩ := indexed.holds found
    obtain ⟨block, blockFound, same⟩ := exists_of_frame frame oldFound
    obtain ⟨address, _, addresses, _⟩ := Block.frame_eq_iff.mp same
    exact ⟨block, blockFound, by rwa [Block.Holds, address, addresses]⟩
  · obtain ⟨old, oldFound, same⟩ := exists_of_frame (fun address => (frame address).symm) found
    obtain ⟨address, _, addresses, _⟩ := Block.frame_eq_iff.mp same
    exact indexed.finds oldFound (by rwa [Block.Holds, address, addresses])

/-- A graph stays laid out if its blocks change but for their frames, and still list their own
edges. -/
theorem Laid.of_frame {changed : Graph} (laid : graph.Laid)
    (functions : changed.functions = graph.functions) (index : changed.index = graph.index)
    (frame : ∀ address : Address,
      (changed.blocks[address]?).map Block.frame = (graph.blocks[address]?).map Block.frame)
    (ownEdges : ∀ {address : Address} {block : Block},
      changed.blocks[address]? = some block → block.ListsOwnEdges) : changed.Laid := by
  have before {address : Address} {block : Block} (found : changed.blocks[address]? = some block) :
      ∃ old, graph.blocks[address]? = some old ∧ old.frame = block.frame :=
    exists_of_frame (fun address => (frame address).symm) found
  refine ⟨fun found => ?_, fun found => ?_, fun found => ?_, fun found address listed => ?_,
    ownEdges, fun found present => ?_, fun built => ?_⟩
  · obtain ⟨old, oldFound, same⟩ := before found
    rw [← (Block.frame_eq_iff.mp same).1, laid.blockKey oldFound]
  · exact laid.functionKey (functions ▸ found)
  · obtain ⟨old, oldFound, same⟩ := before found
    obtain ⟨home, function, parent, owning, once⟩ := laid.owner oldFound
    exact ⟨home, function, (Block.frame_eq_iff.mp same).2.1 ▸ parent, functions ▸ owning, once⟩
  · obtain ⟨old, oldFound, parent⟩ := laid.member (functions ▸ found) address listed
    obtain ⟨block, blockFound, same⟩ := exists_of_frame frame oldFound
    exact ⟨block, blockFound, (Block.frame_eq_iff.mp same).2.1.trans parent⟩
  · obtain ⟨old, oldFound, same⟩ := before found
    obtain ⟨_, _, addresses, count⟩ := Block.frame_eq_iff.mp same
    rw [← addresses, ← count]
    exact laid.lineAddresses oldFound (addresses ▸ present)
  · exact (laid.indexed (index ▸ built)).of_frame frame

/-- Connecting edges keeps a graph laid out. -/
theorem Laid.foldl_connect (laid : graph.Laid) (edges : List Edge) :
    (edges.foldl connect graph).Laid := by
  refine laid.of_frame ?_ ?_ (fun address => ?_) fun {address block} found => ?_
  · rw [foldl_connect_eq]
  · rw [foldl_connect_eq]
  · rw [getElem?_foldl_connect, Option.map_map]
    rfl
  · rw [getElem?_foldl_connect, Option.map_eq_some_iff] at found
    obtain ⟨old, oldFound, rfl⟩ := found
    rw [← laid.blockKey oldFound]
    exact listsOwnEdges_connected (laid.ownEdges oldFound)

/-! ### Both ends of an edge -/

theorem ListedAtEnds.foldl_connect {edge : Edge} (listed : graph.ListedAtEnds edge)
    (edges : List Edge) : (edges.foldl connect graph).ListedAtEnds edge := by
  refine ⟨fun source found => ?_, fun target found => ?_⟩ <;>
    rw [getElem?_foldl_connect, Option.map_eq_some_iff] at found
  · obtain ⟨old, oldFound, rfl⟩ := found
    exact mem_edgesOut_connected.mpr (Or.inl (listed.1 old oldFound))
  · obtain ⟨old, oldFound, rfl⟩ := found
    exact mem_edgesIn_connected.mpr (Or.inl (listed.2 old oldFound))

/-- A connected edge is listed at both ends. -/
theorem listedAtEnds_of_connected {edges : List Edge} {edge : Edge} (member : edge ∈ edges)
    (spans : graph.spans edge = true) : (edges.foldl connect graph).ListedAtEnds edge := by
  refine ⟨fun source found => ?_, fun target found => ?_⟩ <;>
    rw [getElem?_foldl_connect, Option.map_eq_some_iff] at found
  · obtain ⟨old, _, rfl⟩ := found
    exact mem_edgesOut_connected.mpr (Or.inr ⟨member, spans, rfl⟩)
  · obtain ⟨old, _, rfl⟩ := found
    exact mem_edgesIn_connected.mpr (Or.inr ⟨member, spans, rfl⟩)

/-- Connecting edges lists those of them whose two ends are in the graph, and no others. -/
theorem mem_listedEdges_foldl_connect {edges : List Edge} {edge : Edge} :
    edge ∈ (edges.foldl connect graph).listedEdges ↔
      edge ∈ graph.listedEdges ∨ (edge ∈ edges ∧ graph.spans edge = true) := by
  rw [mem_listedEdges]
  constructor
  · rintro ⟨address, block, found, member⟩
    rw [getElem?_foldl_connect, Option.map_eq_some_iff] at found
    obtain ⟨old, oldFound, rfl⟩ := found
    rw [mem_edgesOut_connected, mem_edgesIn_connected] at member
    rcases member with (old | ⟨added, spans, _⟩) | (old | ⟨added, spans, _⟩)
    · exact Or.inl ((mem_listedEdges graph edge).mpr ⟨_, _, oldFound, Or.inl old⟩)
    · exact Or.inr ⟨added, spans⟩
    · exact Or.inl ((mem_listedEdges graph edge).mpr ⟨_, _, oldFound, Or.inr old⟩)
    · exact Or.inr ⟨added, spans⟩
  · rintro (listed | ⟨added, spans⟩)
    · obtain ⟨address, block, found, member⟩ := (mem_listedEdges graph edge).mp listed
      refine ⟨address, _, by rw [getElem?_foldl_connect, found, Option.map_some], ?_⟩
      rw [mem_edgesOut_connected, mem_edgesIn_connected]
      exact member.imp Or.inl Or.inl
    · obtain ⟨source, found⟩ := ((spans_iff graph edge).mp spans).1
      refine ⟨edge.source, _, by rw [getElem?_foldl_connect, found, Option.map_some], Or.inl ?_⟩
      exact mem_edgesOut_connected.mpr (Or.inr ⟨added, spans, rfl⟩)

theorem Sound.foldl_connect (sound : graph.Sound) (edges : List Edge) :
    (edges.foldl connect graph).Sound where
  toLaid := sound.toLaid.foldl_connect edges
  symmetric edge listed := by
    rcases mem_listedEdges_foldl_connect.mp listed with old | ⟨member, spans⟩
    · exact (sound.symmetric edge old).foldl_connect edges
    · exact listedAtEnds_of_connected member spans

/-- After wiring, an edge that some block lists is listed at both ends: one end has listed it
from the beginning, and if the other one is there, the edge was connected. -/
theorem Laid.listedAtEnds_wire (laid : graph.Laid) {edge : Edge}
    (listed : edge ∈ graph.listedEdges) : graph.wire.ListedAtEnds edge := by
  obtain ⟨address, block, found, member⟩ := (mem_listedEdges graph edge).mp listed
  have here := (mem_listedEdges graph edge).mpr ⟨address, block, found, member⟩
  by_cases spans : graph.spans edge = true
  · exact listedAtEnds_of_connected here spans
  refine ListedAtEnds.foldl_connect ⟨fun source sourceFound => ?_, fun target targetFound => ?_⟩ _
  · rcases member with leaving | entering
    · rw [(laid.ownEdges found).leaves edge leaving, laid.blockKey found, found,
        Option.some.injEq] at sourceFound
      exact sourceFound ▸ leaving
    · have target := (laid.ownEdges found).enters edge entering
      rw [laid.blockKey found] at target
      exact absurd ((spans_iff graph edge).mpr ⟨⟨source, sourceFound⟩, block, target ▸ found⟩) spans
  · rcases member with leaving | entering
    · have source := (laid.ownEdges found).leaves edge leaving
      rw [laid.blockKey found] at source
      exact absurd ((spans_iff graph edge).mpr ⟨⟨block, source ▸ found⟩, target, targetFound⟩) spans
    · rw [(laid.ownEdges found).enters edge entering, laid.blockKey found, found,
        Option.some.injEq] at targetFound
      exact targetFound ▸ entering

/-- Where blocks list only edges that leave them, wiring changes none of these lists. -/
theorem Laid.getElem?_wire (laid : graph.Laid)
    (leaving : ∀ {address : Address} {block : Block}, graph.blocks[address]? = some block →
      block.edgesIn = []) {address : Address} {block : Block}
    (found : graph.blocks[address]? = some block) :
    ∃ edgesIn, graph.wire.blocks[address]? = some { block with edgesIn } := by
  have unchanged : (graph.listedEdges.filter fun edge =>
      graph.spans edge && edge.source == address).foldl Block.insertEdge block.edgesOut =
        block.edgesOut := by
    refine Block.foldl_insertEdge_of_subset fun edge member => ?_
    obtain ⟨listed, ends⟩ := List.mem_filter.mp member
    obtain ⟨home, other, otherFound, lists⟩ := (mem_listedEdges graph edge).mp listed
    rw [leaving otherFound, List.mem_nil_iff, or_false] at lists
    have source := (laid.ownEdges otherFound).leaves edge lists
    rw [laid.blockKey otherFound, beq_iff_eq.mp (Bool.and_eq_true_iff.mp ends).2] at source
    rw [← source, found, Option.some.injEq] at otherFound
    exact otherFound ▸ lists
  rw [wire, getElem?_foldl_connect, found, Option.map_some, connected, unchanged]
  exact ⟨_, rfl⟩

/-- Wiring makes a graph that is laid out sound. -/
theorem Laid.wire (laid : graph.Laid) : graph.wire.Sound where
  toLaid := laid.foldl_connect graph.listedEdges
  symmetric _ listed :=
    laid.listedAtEnds_wire ((mem_listedEdges_foldl_connect.mp listed).elim id fun added => added.1)

end Graph

end FlowGraph
