/-
This file proves that a graph comes back from its exchange form without its
labels. An exchanged edge is a bare pair. On the way back it is listed on the
block it leaves if that block is there, and on the block it enters otherwise, so
the edges that leave a block are listed on it again, and of those that enter it
only the ones that wait. Taking the blocks out function by function leaves none,
and wiring lists the other edges that enter a block again, behind those that
wait.
-/

import FlowGraph.Proofs.Saved

namespace FlowGraph

/-! ### Parts of a list that belong to one content -/

/-- Of items whose keys say which content they come from, those with the key of a content are
its own. -/
theorem AddressMap.filter_flatMap_contents {Content Item : Type} {table : AddressMap Content}
    {part : Content → List Item} {key : Item → Address}
    (keyed : ∀ {address : Address} {content : Content}, table[address]? = some content →
      ∀ item ∈ part content, key item = address)
    {address : Address} {content : Content} (found : table[address]? = some content) :
    ((table.contents.flatMap part).filter fun item => key item == address) = part content := by
  have listed : (address, content) ∈ table.toList :=
    Std.ExtTreeMap.mem_toList_iff_getElem?_eq_some.mpr found
  obtain ⟨before, after, split⟩ := List.append_of_mem listed
  have distinct := table.nodup_addresses
  rw [addresses, split, List.map_append, List.map_cons, List.nodup_middle, List.nodup_cons,
    ← List.map_append] at distinct
  have foreign (entries : List (Address × Content)) (among : entries ⊆ before ++ after) :
      (((entries.map Prod.snd).flatMap part).filter fun item => key item == address) = [] := by
    refine List.filter_eq_nil_iff.mpr fun item member same => ?_
    obtain ⟨other, otherListed, own⟩ := List.mem_flatMap.mp member
    obtain ⟨entry, entryListed, rfl⟩ := List.mem_map.mp otherListed
    have inTable : entry ∈ table.toList := by
      rw [split]
      exact (List.perm_middle.mem_iff).mpr (List.mem_cons_of_mem _ (among entryListed))
    have home := keyed (Std.ExtTreeMap.mem_toList_iff_getElem?_eq_some.mp inTable) item own
    refine distinct.1 (List.mem_map.mpr ⟨entry, among entryListed, ?_⟩)
    rw [← home, beq_iff_eq.mp same]
  have own : ((part content).filter fun item => key item == address) = part content :=
    List.filter_eq_self.mpr fun item member => beq_iff_eq.mpr (keyed found item member)
  have parts : table.contents.flatMap part = (before.map Prod.snd).flatMap part ++
      (part content ++ (after.map Prod.snd).flatMap part) := by
    rw [contents, split, List.map_append, List.map_cons, List.flatMap_append, List.flatMap_cons]
  rw [parts, List.filter_append, List.filter_append, own,
    foreign before (List.subset_append_left _ _), foreign after (List.subset_append_right _ _),
    List.nil_append, List.append_nil]

namespace Exchange

/-! ### Edges on nodes -/

theorem listEdge_leaving {blocks : AddressMap Block} {edge : Edge}
    (leaves : blocks.contains edge.source = true) :
    listEdge blocks (.ofEdge edge) =
      .ok (blocks.modify edge.source fun block => block.addOut edge.target edge.kind) := by
  have kind : EdgeKind.ofName? edge.kind.name = some edge.kind := by cases edge.kind <;> rfl
  simp only [listEdge, ExchangeEdge.ofEdge, kind, leaves, if_true]

theorem listEdge_entering {blocks : AddressMap Block} {edge : Edge}
    (waits : blocks.contains edge.source = false) (enters : blocks.contains edge.target = true) :
    listEdge blocks (.ofEdge edge) =
      .ok (blocks.modify edge.target fun block => block.addIn edge.source edge.kind) := by
  have kind : EdgeKind.ofName? edge.kind.name = some edge.kind := by cases edge.kind <;> rfl
  simp only [listEdge, ExchangeEdge.ofEdge, kind, waits, enters, if_true, Bool.false_eq_true,
    if_false]

/-- Edges that are each listed at a home of theirs come to every block in their order. -/
theorem foldlM_listEdge {home : Edge → Address} {list : Edge → Block → Block}
    (edges : List Edge) (blocks : AddressMap Block)
    (step : ∀ edge ∈ edges, ∀ current : AddressMap Block,
      (∀ address, current.contains address = blocks.contains address) →
        listEdge current (.ofEdge edge) = .ok (current.modify (home edge) (list edge))) :
    ∃ next, (edges.map ExchangeEdge.ofEdge).foldlM listEdge blocks = .ok next ∧
      ∀ address : Address, next[address]? = blocks[address]?.map fun block =>
        (edges.filter fun edge => home edge == address).foldl (fun block edge => list edge block)
          block := by
  induction edges generalizing blocks with
  | nil => exact ⟨blocks, rfl, fun address => Option.map_id'.symm⟩
  | cons edge rest inductionHypothesis =>
    rw [List.forall_mem_cons] at step
    have kept (address : Address) : (blocks.modify (home edge) (list edge)).contains address =
        blocks.contains address := Std.ExtTreeMap.contains_modify
    obtain ⟨next, listed, lookups⟩ := inductionHypothesis
      (blocks.modify (home edge) (list edge)) fun other member current same =>
        step.2 other member current fun address => (same address).trans (kept address)
    refine ⟨next, ?_, fun address => ?_⟩
    · rw [List.map_cons, List.foldlM_cons, step.1 blocks fun _ => rfl]
      exact listed
    · rw [lookups, AddressMap.getElem?_modify, List.filter_cons]
      by_cases here : home edge = address
      · rw [if_pos here, if_pos (beq_iff_eq.mpr here), Option.map_map]
        rfl
      · rw [if_neg here, if_neg (by rwa [beq_iff_eq])]

/-! ### Blocks of functions -/

/-- Blocks that are there are taken, and nothing else is. -/
theorem takeBlocks_eq {blocks : AddressMap Block} {addresses : List Address} {taken : List Block}
    (distinct : addresses.Nodup)
    (found : (addresses.map fun address => blocks[address]?) = taken.map some) :
    ∃ left, takeBlocks blocks addresses = .ok (taken, left) ∧
      ∀ address : Address, left[address]? =
        if address ∈ addresses then none else blocks[address]? := by
  induction addresses generalizing blocks taken with
  | nil =>
    obtain rfl : taken = [] := List.map_eq_nil_iff.mp found.symm
    exact ⟨blocks, rfl, fun address => (if_neg List.not_mem_nil).symm⟩
  | cons address rest inductionHypothesis =>
    rw [List.nodup_cons] at distinct
    cases taken with
    | nil => cases found
    | cons block others =>
      rw [List.map_cons, List.map_cons, List.cons.injEq] at found
      have stillFound : (rest.map fun other => (blocks.erase address)[other]?) =
          others.map some := by
        rw [← found.2]
        refine List.map_congr_left fun other member => ?_
        have different : address ≠ other := fun same => distinct.1 (same ▸ member)
        rw [AddressMap.getElem?_erase, if_neg different]
      obtain ⟨left, took, lookups⟩ := inductionHypothesis distinct.2 stillFound
      refine ⟨left, ?_, fun other => ?_⟩
      · simp only [takeBlocks, found.1, took]
        rfl
      · rw [lookups, AddressMap.getElem?_erase]
        by_cases here : address = other
        · subst here
          rw [if_pos rfl, if_pos List.mem_cons_self, ite_self]
        · rw [if_neg here]
          simp only [List.mem_cons, Ne.symm here, false_or]

/-- Functions take their own blocks, and leave those of no function. -/
theorem takeFunctions_eq {blocks : AddressMap Block} {functions : List Function}
    {own : Function → List Block} (distinct : (functions.flatMap Function.blocks).Nodup)
    (found : ∀ function ∈ functions,
      (function.blocks.map fun address => blocks[address]?) = (own function).map some) :
    ∃ left, takeFunctions blocks (functions.map fun function =>
          (function.address, ExchangeFunction.ofFunction function)) =
        .ok (functions.map fun function => ⟨some function.address, function.name,
          function.isExternal, function.metadata, own function⟩, left) ∧
      ∀ address : Address, left[address]? =
        if address ∈ functions.flatMap Function.blocks then none else blocks[address]? := by
  induction functions generalizing blocks with
  | nil => exact ⟨blocks, rfl, fun address => (if_neg List.not_mem_nil).symm⟩
  | cons function rest inductionHypothesis =>
    rw [List.flatMap_cons, List.nodup_append'] at distinct
    rw [List.forall_mem_cons] at found
    obtain ⟨after, tookOwn, lookups⟩ := takeBlocks_eq distinct.1 found.1
    have stillFound : ∀ other ∈ rest,
        (other.blocks.map fun address => after[address]?) = (own other).map some := by
      intro other member
      rw [← found.2 other member]
      refine List.map_congr_left fun address listed => ?_
      have elsewhere : address ∉ function.blocks := fun inFunction =>
        distinct.2.2 inFunction (List.mem_flatMap.mpr ⟨other, member, listed⟩)
      rw [lookups, if_neg elsewhere]
    obtain ⟨left, tookRest, leftLookups⟩ := inductionHypothesis distinct.2.1 stillFound
    refine ⟨left, ?_, fun address => ?_⟩
    · have head : takeBlocks blocks (ExchangeFunction.ofFunction function).blocks =
          .ok (own function, after) := tookOwn
      simp only [List.map_cons, takeFunctions, head, Outcome.ok_bind, tookRest]
      rfl
    · rw [leftLookups, lookups, List.flatMap_cons]
      by_cases inFunction : address ∈ function.blocks <;> simp [inFunction]

end Exchange

namespace Graph

variable {graph : Graph} {change : Block → Block} {address : Address} {block : Block}

/-! ### Blocks on the way back -/

/-- The edges that enter a block from outside the graph. -/
def waitingIn (graph : Graph) (block : Block) : List Edge :=
  block.edgesIn.filter fun edge => !graph.blocks.contains edge.source

theorem pendingEdges_eq (graph : Graph) :
    Exchange.pendingEdges graph = graph.blockList.flatMap graph.waitingIn :=
  List.filter_flatMap

/-- A block that comes back from an exchange form before it is wired. -/
def exchangedBlock (graph : Graph) (block : Block) : Block :=
  { block with labels := ∅, edgesIn := graph.waitingIn block, parent := none }

theorem Laid.nodes_eq (laid : graph.Laid) :
    ((Exchange.ofGraph graph).nodes.foldl
        (fun table node => table.insert node.address node.toBlock) ∅ : AddressMap Block) =
      graph.blocks.map fun _ block => (ExchangeNode.ofBlock block).toBlock := by
  have addresses : (graph.blockList.map fun block => (ExchangeNode.ofBlock block).toBlock).map
      Block.address = graph.blocks.addresses := by
    rw [laid.addresses_blocks, List.map_map]
    rfl
  have whole : ((Exchange.ofGraph graph).nodes.foldl
        (fun table node => table.insert node.address node.toBlock) ∅ : AddressMap Block) =
      (graph.blockList.map fun block => (ExchangeNode.ofBlock block).toBlock).foldl
        (fun table block => table.insert block.address block) ∅ := by
    rw [Exchange.ofGraph, List.foldl_map, List.foldl_map]
    rfl
  refine AddressMap.eq_of_found fun address block => ?_
  rw [whole, AddressMap.getElem?_foldl_insert Block.address
    (addresses ▸ graph.blocks.nodup_addresses), Std.ExtTreeMap.getElem?_map,
    Option.map_eq_some_iff, Std.ExtTreeMap.getElem?_empty, List.mem_map]
  constructor
  · rintro (⟨⟨old, listed, rfl⟩, rfl⟩ | ⟨_, none⟩)
    · exact ⟨old, laid.mem_blockList.mp listed, rfl⟩
    · cases none
  · rintro ⟨old, found, rfl⟩
    have home : old.address = address := laid.blockKey found
    exact Or.inl ⟨⟨old, AddressMap.mem_contents_of_getElem? found, rfl⟩, home⟩

/-- The edges that leave a block are listed on it again. -/
theorem Laid.filter_edges (laid : graph.Laid) (found : graph.blocks[address]? = some block) :
    (graph.edges.filter fun edge => edge.source == address) = block.edgesOut := by
  refine AddressMap.filter_flatMap_contents (fun there edge listed => ?_) found
  rw [(laid.ownEdges there).leaves edge listed, laid.blockKey there]

/-- The edges that wait to enter a block are listed on it again. -/
theorem Laid.filter_pendingEdges (laid : graph.Laid)
    (found : graph.blocks[address]? = some block) :
    ((Exchange.pendingEdges graph).filter fun edge => edge.target == address) =
      graph.waitingIn block := by
  rw [pendingEdges_eq]
  refine AddressMap.filter_flatMap_contents (fun there edge listed => ?_) found
  rw [(laid.ownEdges there).enters edge (List.mem_filter.mp listed).1, laid.blockKey there]

/-- A node with its edges listed is the block on the way back. -/
theorem Laid.exchangedBlock_eq (laid : graph.Laid)
    (found : graph.blocks[address]? = some block) :
    (graph.waitingIn block).foldl (fun block edge => block.addIn edge.source edge.kind)
        (block.edgesOut.foldl (fun block edge => block.addOut edge.target edge.kind)
          (ExchangeNode.ofBlock block).toBlock) = graph.exchangedBlock block := by
  have own := laid.ownEdges found
  exact Block.foldl_addIn_foldl_addOut (ExchangeNode.ofBlock block).toBlock rfl rfl
    ⟨own.nodupOut, own.leaves, own.nodupIn.filter _,
      fun edge listed => own.enters edge (List.mem_filter.mp listed).1⟩

/-- Listing all exchanged edges on the nodes gives the blocks on the way back. -/
theorem Laid.listed_eq (laid : graph.Laid) :
    (Exchange.ofGraph graph).edges.foldlM Exchange.listEdge
        (graph.blocks.map fun _ block => (ExchangeNode.ofBlock block).toBlock) =
      .ok (graph.blocks.map fun _ block => graph.exchangedBlock block) := by
  have contains (address : Address) : (graph.blocks.map fun _ block =>
      (ExchangeNode.ofBlock block).toBlock).contains address = graph.blocks.contains address :=
    Std.ExtTreeMap.contains_map
  obtain ⟨middle, listedOut, outLookups⟩ := Exchange.foldlM_listEdge graph.edges
    (graph.blocks.map fun _ block => (ExchangeNode.ofBlock block).toBlock)
    fun edge member current same => by
      obtain ⟨block, listed, own⟩ := List.mem_flatMap.mp member
      have found := laid.mem_blockList.mp listed
      refine Exchange.listEdge_leaving ?_
      rw [same, contains, AddressMap.contains_iff]
      exact ⟨block, (laid.ownEdges found).leaves edge own ▸ found⟩
  have kept (address : Address) : middle.contains address = graph.blocks.contains address := by
    rw [Std.ExtTreeMap.contains_eq_isSome_getElem?, outLookups, Option.isSome_map,
      ← Std.ExtTreeMap.contains_eq_isSome_getElem?, contains]
  obtain ⟨last, listedIn, lookups⟩ := Exchange.foldlM_listEdge (Exchange.pendingEdges graph) middle
    fun edge member current same => by
      obtain ⟨listed, waits⟩ := List.mem_filter.mp member
      obtain ⟨block, listed, own⟩ := List.mem_flatMap.mp listed
      have found := laid.mem_blockList.mp listed
      refine Exchange.listEdge_entering ?_ ?_
      · rwa [same, kept, ← Bool.not_eq_true']
      · rw [same, kept, AddressMap.contains_iff]
        exact ⟨block, (laid.ownEdges found).enters edge own ▸ found⟩
  have result : last = graph.blocks.map fun _ block => graph.exchangedBlock block := by
    refine Std.ExtTreeMap.ext_getElem? fun address => ?_
    rw [lookups, outLookups, Std.ExtTreeMap.getElem?_map, Std.ExtTreeMap.getElem?_map]
    cases found : graph.blocks[address]? with
    | none => rfl
    | some block =>
      simp only [Option.map_some, laid.filter_edges found, laid.filter_pendingEdges found,
        laid.exchangedBlock_eq found]
  rw [Exchange.ofGraph, List.map_append, List.foldlM_append, listedOut]
  exact result ▸ listedIn

/-- Under the addresses that a function lists its blocks are found. -/
theorem Laid.map_getElem?_blocks (laid : graph.Laid) {home : Address} {function : Function}
    (found : graph.functions[home]? = some function) :
    (function.blocks.map fun address => graph.blocks[address]?) =
      (graph.blocksOf function).map some := by
  rw [blocksOf, List.map_filterMap, ← List.filterMap_eq_map]
  refine List.filterMap_congr fun address listed => ?_
  obtain ⟨block, there, _⟩ := laid.member found address listed
  rw [Function.comp_apply, there, Option.map_some]

/-- The functions take all blocks. -/
theorem Laid.takeFunctions_eq (laid : graph.Laid) (change : Block → Block) :
    Exchange.takeFunctions (graph.blocks.map fun _ block => change block)
        (Exchange.ofGraph graph).functions.toList = .ok (graph.drafts change, ∅) := by
  have entries : (Exchange.ofGraph graph).functions.toList = graph.functionList.map fun function =>
      (function.address, ExchangeFunction.ofFunction function) := by
    rw [Exchange.ofGraph, Std.ExtTreeMap.toList_map, functionList, AddressMap.contents,
      List.map_map]
    refine List.map_congr_left fun entry member => ?_
    have found := Std.ExtTreeMap.mem_toList_iff_getElem?_eq_some.mp member
    rw [Function.comp_apply, laid.functionKey found]
  have distinct : (graph.functionList.flatMap Function.blocks).Nodup :=
    laid.blocks_partition.nodup_iff.mpr graph.blocks.nodup_addresses
  have found : ∀ function ∈ graph.functionList,
      (function.blocks.map fun address =>
        (graph.blocks.map fun _ block => change block)[address]?) =
          ((graph.blocksOf function).map change).map some := by
    intro function listed
    have own := congrArg (List.map (Option.map change))
      (laid.map_getElem?_blocks (laid.mem_functionList.mp listed))
    rw [List.map_map, List.map_map] at own
    rw [List.map_map]
    refine Eq.trans (List.map_congr_left fun address _ => ?_) own
    exact Std.ExtTreeMap.getElem?_map
  obtain ⟨left, took, lookups⟩ := Exchange.takeFunctions_eq distinct found
  have nothing : left = ∅ := by
    refine Std.ExtTreeMap.ext_getElem? fun address => ?_
    rw [lookups, Std.ExtTreeMap.getElem?_empty]
    split
    · rfl
    · rename_i nowhere
      rw [laid.blocks_partition.mem_iff, AddressMap.addresses_eq_keys,
        Std.ExtTreeMap.mem_keys] at nowhere
      rw [Std.ExtTreeMap.getElem?_map, Std.ExtTreeMap.getElem?_eq_none nowhere, Option.map_none]
  rw [entries, took, nothing]
  rfl

/-- The graph that comes back from the exchange form of a graph. -/
def exchanged (graph : Graph) : Graph := (graph.changed graph.exchangedBlock).wire

/-- Whether a change leaves a block its address, its lines and the edges that leave it, and of
those that enter it the ones that wait. -/
structure LeavesWaiting (graph : Graph) (change : Block → Block) : Prop where
  address : ∀ block, (change block).address = block.address
  lines : ∀ block, (change block).lines = block.lines
  lineAddresses : ∀ block, (change block).lineAddresses = block.lineAddresses
  edgesOut : ∀ block, (change block).edgesOut = block.edgesOut
  edgesIn : ∀ block, (change block).edgesIn = graph.waitingIn block

theorem leavesWaiting_exchangedBlock (graph : Graph) : graph.LeavesWaiting graph.exchangedBlock :=
  ⟨fun _ => rfl, fun _ => rfl, fun _ => rfl, fun _ => rfl, fun _ => rfl⟩

theorem Laid.replaceable (laid : graph.Laid) (leaves : graph.LeavesWaiting change) :
    graph.Replaceable change where
  address block _ := leaves.address block
  matchesLines block listed := by
    have matched := laid.lineAddresses (laid.mem_blockList.mp listed)
    rwa [MatchesLines, leaves.lines, leaves.lineAddresses]
  ownEdges block listed := by
    have own := laid.ownEdges (laid.mem_blockList.mp listed)
    refine ⟨?_, fun edge member => ?_, ?_, fun edge member => ?_⟩
    · rw [leaves.edgesOut]
      exact own.nodupOut
    · rw [leaves.edgesOut] at member
      rw [leaves.address]
      exact own.leaves edge member
    · rw [leaves.edgesIn]
      exact own.nodupIn.filter _
    · rw [leaves.edgesIn] at member
      rw [leaves.address]
      exact own.enters edge (List.mem_filter.mp member).1

theorem Laid.toGraph_exchange (laid : graph.Laid) :
    (Exchange.ofGraph graph).toGraph = .ok graph.exchanged := by
  simp only [Exchange.toGraph, laid.nodes_eq, laid.listed_eq, laid.takeFunctions_eq,
    Outcome.ok_bind, Std.ExtTreeMap.minKey?_empty]
  exact laid.addFunctions_drafts (laid.replaceable graph.leavesWaiting_exchangedBlock) false

/-! ### What wiring adds -/

/-- A block that came back, after the graph was wired. -/
def returnedBlock (graph : Graph) (address : Address) (block : Block) : Block :=
  (graph.changed graph.exchangedBlock).connected (graph.changed graph.exchangedBlock).listedEdges
    address { graph.exchangedBlock block with parent := block.parent }

theorem getElem?_exchanged (graph : Graph) (address : Address) :
    graph.exchanged.blocks[address]? =
      graph.blocks[address]?.map (graph.returnedBlock address) := by
  rw [exchanged, wire, getElem?_foldl_connect, getElem?_changed, Option.map_map]
  rfl

theorem contains_exchanged (graph : Graph) (address : Address) :
    graph.exchanged.blocks.contains address = graph.blocks.contains address := by
  rw [Std.ExtTreeMap.contains_eq_isSome_getElem?, getElem?_exchanged, Option.isSome_map,
    ← Std.ExtTreeMap.contains_eq_isSome_getElem?]

theorem spans_changed (graph : Graph) (change : Block → Block) (edge : Edge) :
    (graph.changed change).spans edge = graph.spans edge := by
  simp only [spans, changed, Std.ExtTreeMap.contains_map]

/-- No edge is lost on the way: an edge that does not wait to enter its block is listed on the
block that it leaves. -/
theorem Sound.mem_listedEdges_changed (sound : graph.Sound) (leaves : graph.LeavesWaiting change)
    {edge : Edge} : edge ∈ (graph.changed change).listedEdges ↔ edge ∈ graph.listedEdges := by
  have kept {block : Block} : edge ∈ (change block).edgesOut ∨ edge ∈ (change block).edgesIn ↔
      edge ∈ block.edgesOut ∨ edge ∈ graph.waitingIn block := by
    rw [leaves.edgesOut, leaves.edgesIn]
  simp only [mem_listedEdges, getElem?_changed, Option.map_eq_some_iff]
  constructor
  · rintro ⟨address, _, ⟨block, found, rfl⟩, listed⟩
    exact ⟨address, block, found, (kept.mp listed).imp_right fun waits =>
      (List.mem_filter.mp waits).1⟩
  · rintro ⟨address, block, found, listed⟩
    cases present : graph.blocks.contains edge.source with
    | true =>
      obtain ⟨source, sourceFound⟩ := (AddressMap.contains_iff _ _).mp present
      have ends := sound.symmetric edge ((mem_listedEdges graph edge).mpr ⟨_, _, found, listed⟩)
      exact ⟨_, _, ⟨source, sourceFound, rfl⟩, kept.mpr (Or.inl (ends.1 source sourceFound))⟩
    | false =>
      refine ⟨address, _, ⟨block, found, rfl⟩, kept.mpr (listed.imp_right fun enters => ?_)⟩
      exact List.mem_filter.mpr ⟨enters, by rw [present]; rfl⟩

/-- The edges that leave a block came back in their order. -/
theorem Sound.edgesOut_returnedBlock (sound : graph.Sound)
    (found : graph.blocks[address]? = some block) :
    (graph.returnedBlock address block).edgesOut = block.edgesOut := by
  refine Block.foldl_insertEdge_of_subset fun edge member => ?_
  obtain ⟨listed, ends⟩ := List.mem_filter.mp member
  refine (sound.mem_edgesOut_iff (AddressMap.mem_contents_of_getElem? found)).mpr
    ⟨(sound.mem_listedEdges_changed graph.leavesWaiting_exchangedBlock).mp listed, ?_⟩
  rw [sound.blockKey found]
  exact beq_iff_eq.mp (Bool.and_eq_true_iff.mp ends).2

/-- The edges that enter a block came back, those that wait in front. -/
theorem Sound.edgesIn_returnedBlock (sound : graph.Sound)
    (found : graph.blocks[address]? = some block) :
    (graph.returnedBlock address block).edgesIn.Perm block.edgesIn := by
  have listedBlock := AddressMap.mem_contents_of_getElem? found
  have home := sound.blockKey found
  have distinct := (sound.ownEdges found).nodupIn
  have returned : (graph.returnedBlock address block).edgesIn.Nodup :=
    Block.nodup_foldl_insertEdge (distinct.filter _) _
  refine (List.perm_ext_iff_of_nodup returned distinct).mpr fun edge => ?_
  rw [returnedBlock, mem_edgesIn_connected,
    sound.mem_listedEdges_changed graph.leavesWaiting_exchangedBlock, spans_changed,
    sound.mem_edgesIn_iff listedBlock]
  constructor
  · rintro (waits | ⟨listed, _, target⟩)
    · exact (sound.mem_edgesIn_iff listedBlock).mp (List.mem_filter.mp waits).1
    · exact ⟨listed, target.trans home.symm⟩
  · rintro ⟨listed, target⟩
    cases present : graph.blocks.contains edge.source with
    | true =>
      refine Or.inr ⟨listed, (spans_iff graph edge).mpr ⟨?_, ?_⟩, target.trans home⟩
      · exact (AddressMap.contains_iff _ _).mp present
      · exact ⟨block, by rw [target, home, found]⟩
    | false =>
      refine Or.inl (List.mem_filter.mpr ⟨?_, by rw [present]; rfl⟩)
      exact (sound.mem_edgesIn_iff listedBlock).mpr ⟨listed, target⟩

/-- The edges that wait to enter a block came back in their order. -/
theorem waitingIn_returnedBlock (graph : Graph) (address : Address) (block : Block) :
    graph.exchanged.waitingIn (graph.returnedBlock address block) = graph.waitingIn block := by
  have sources : (fun edge : Edge => !graph.exchanged.blocks.contains edge.source) =
      fun edge : Edge => !graph.blocks.contains edge.source :=
    funext fun edge => by rw [contains_exchanged]
  have added : ∀ edge ∈ (graph.changed graph.exchangedBlock).listedEdges.filter fun edge =>
      (graph.changed graph.exchangedBlock).spans edge && edge.target == address,
        (!graph.blocks.contains edge.source) = false := by
    intro edge member
    have ends := (Bool.and_eq_true_iff.mp (List.mem_filter.mp member).2).1
    rw [spans_changed, spans, Bool.and_eq_true] at ends
    rw [ends.1]
    rfl
  rw [waitingIn, sources]
  refine (Block.filter_foldl_insertEdge added).trans ?_
  exact (List.filter_filter).trans (by simp only [Bool.and_self]; rfl)

/-! ### The exchange form of what came back -/

/-- What is looked at in every block decides about the list of blocks. -/
theorem map_blockList_exchanged {Image : Type} {look before : Block → Image}
    (same : ∀ {address : Address} {block : Block}, graph.blocks[address]? = some block →
      look (graph.returnedBlock address block) = before block) :
    graph.exchanged.blockList.map look = graph.blockList.map before := by
  have tables : (graph.exchanged.blocks.map fun _ block => look block) =
      graph.blocks.map fun _ block => before block := by
    refine Std.ExtTreeMap.ext_getElem? fun address => ?_
    rw [Std.ExtTreeMap.getElem?_map, Std.ExtTreeMap.getElem?_map, getElem?_exchanged]
    cases found : graph.blocks[address]? with
    | none => rfl
    | some block => rw [Option.map_some, Option.map_some, Option.map_some, same found]
  rw [blockList, blockList, ← AddressMap.contents_map, tables, AddressMap.contents_map]

theorem exchanged_records (graph : Graph) : graph.exchanged.functions = graph.functions ∧
    graph.exchanged.normalizer = graph.normalizer ∧ graph.exchanged.metadata = graph.metadata :=
  ⟨(wire_alike _).functions, (wire_alike _).records⟩

/-- What came back has the same exchange form. -/
theorem Sound.ofGraph_exchanged (sound : graph.Sound) :
    Exchange.ofGraph graph.exchanged = Exchange.ofGraph graph := by
  have nodes : graph.exchanged.blockList.map ExchangeNode.ofBlock =
      graph.blockList.map ExchangeNode.ofBlock := map_blockList_exchanged fun _ => rfl
  have edges : graph.exchanged.edges = graph.edges := by
    rw [Graph.edges, Graph.edges, List.flatMap_def, List.flatMap_def]
    exact congrArg List.flatten (map_blockList_exchanged sound.edgesOut_returnedBlock)
  have waiting : Exchange.pendingEdges graph.exchanged = Exchange.pendingEdges graph := by
    rw [pendingEdges_eq, pendingEdges_eq, List.flatMap_def, List.flatMap_def]
    exact congrArg List.flatten
      (map_blockList_exchanged fun _ => graph.waitingIn_returnedBlock _ _)
  obtain ⟨functions, normalizer, metadata⟩ := graph.exchanged_records
  rw [Exchange.ofGraph, Exchange.ofGraph, nodes, edges, waiting, functions, normalizer, metadata]

/-! ### Graphs without labels -/

/-- The graph without the labels of its blocks. -/
def unlabeled (graph : Graph) : Graph :=
  { graph with blocks := graph.blocks.map fun _ block => { block with labels := ∅ } }

theorem Sound.unlabeled (sound : graph.Sound) : graph.unlabeled.Sound :=
  sound.mapBlocks (fun _ => rfl) fun _ => ⟨rfl, rfl⟩

theorem listedEdges_unlabeled (graph : Graph) :
    graph.unlabeled.listedEdges = graph.listedEdges :=
  graph.listedEdges_mapBlocks fun _ => ⟨rfl, rfl⟩

theorem mem_danglingEdges_unlabeled {edge : Edge} :
    edge ∈ graph.unlabeled.danglingEdges ↔ edge ∈ graph.danglingEdges := by
  rw [mem_danglingEdges, mem_danglingEdges, listedEdges_unlabeled]
  simp only [spans, unlabeled, Std.ExtTreeMap.contains_map]

/-- What came back is the graph without labels, but for the order of edges that enter a block. -/
theorem Sound.exchanged_alike (sound : graph.Sound) : graph.exchanged.Alike graph.unlabeled := by
  refine (wire_alike _).trans ⟨rfl, fun address => ?_, fun edge => ?_, rfl, rfl⟩
  · rw [getElem?_changed, Graph.unlabeled, Std.ExtTreeMap.getElem?_map, Option.map_map,
      Option.map_map]
    rfl
  · rw [listedEdges_unlabeled]
    exact sound.mem_listedEdges_changed graph.leavesWaiting_exchangedBlock

/-- Whether the blocks of a graph list their edges in another one: those that leave and those
that wait to enter in the same order, and with those the other edges that enter. -/
def EdgesReturn (graph next : Graph) : Prop :=
  ∀ {address : Address} {block : Block}, graph.blocks[address]? = some block →
    ∃ back, next.blocks[address]? = some back ∧ back.edgesOut = block.edgesOut ∧
      next.waitingIn back = graph.waitingIn block ∧ back.edgesIn.Perm block.edgesIn

/-- A graph comes back from its exchange form without its labels, and in nothing else different.
Every edge is back on the blocks that listed it, and the exchange form is the same again. -/
theorem exchanged_comes_back (reachable : Reachable graph) :
    ∃ next, (Exchange.ofGraph graph).toGraph = .ok next ∧ next.same graph.unlabeled = true ∧
      Exchange.ofGraph next = Exchange.ofGraph graph ∧ graph.EdgesReturn next ∧
      ∀ edge, edge ∈ next.danglingEdges ↔ edge ∈ graph.danglingEdges := by
  have sound := reachable.sound
  have read := sound.toGraph_exchange
  have alike := sound.exchanged_alike
  refine ⟨graph.exchanged, read, alike.same (Exchange.sound_toGraph read) sound.unlabeled,
    sound.ofGraph_exchanged, fun {address block} found => ?_,
    fun edge => alike.mem_danglingEdges_iff.trans mem_danglingEdges_unlabeled⟩
  refine ⟨graph.returnedBlock address block, ?_, sound.edgesOut_returnedBlock found,
    graph.waitingIn_returnedBlock address block, sound.edgesIn_returnedBlock found⟩
  rw [getElem?_exchanged, found, Option.map_some]

/-- The open loop comes back with its two edges to itself and with those that wait at both of its
ends, but without the label of its block. -/
theorem openGraph_exchanged :
    (Exchange.ofGraph openGraph).edges = [⟨16, 16, "normal"⟩, ⟨16, 16, "function_call"⟩,
        ⟨16, 99, "function_call"⟩, ⟨77, 16, "normal"⟩] ∧
      ∃ next, (Exchange.ofGraph openGraph).toGraph = .ok next ∧
        next.same openGraph.unlabeled = true ∧
        Exchange.ofGraph next = Exchange.ofGraph openGraph ∧ openGraph.EdgesReturn next ∧
        ∀ edge, edge ∈ next.danglingEdges ↔ edge ∈ openGraph.danglingEdges :=
  ⟨by decide, exchanged_comes_back reachable_openGraph⟩

end Graph

end FlowGraph
