/-
This file describes the graph that a compact graph is expanded to. A function
is found again at its entry block, or else at its lowest block; functions share
no blocks, so no two of them are found at one address, and a function without
blocks is not found again. Therefore the batch of all functions that are found
is admitted, and wiring changes no edges that leave a block. So expanding
succeeds, and its result is the graph that was compacted, with other addresses,
other names and calls first.
-/

import FlowGraph.Proofs.Batch
import FlowGraph.Proofs.Expanded
import FlowGraph.Proofs.Renumbered

namespace FlowGraph

/-! ### Where functions are found again -/

/-- The block at which a function is found again: its entry block if it has one, or else its
lowest block. -/
def Function.anchor? (function : Function) : Option Address :=
  if function.address ∈ function.blocks then some function.address else function.blocks.min?

theorem Function.mem_blocks_of_anchor? {function : Function} {anchor : Address}
    (found : function.anchor? = some anchor) : anchor ∈ function.blocks := by
  unfold anchor? at found
  split at found
  · rename_i entry
    exact Option.some.inj found ▸ entry
  · exact List.min?_mem found

theorem Function.anchor?_eq_none_iff {function : Function} :
    function.anchor? = none ↔ function.blocks = [] := by
  unfold anchor?
  split
  · rename_i entry
    exact ⟨fun none => (nomatch none), fun empty => absurd (empty ▸ entry) List.not_mem_nil⟩
  · exact List.min?_eq_none_iff

namespace Graph

variable {graph : Graph} {keepAddresses : Bool} {function : Function} {block : Block}
  {name : String} {anchor : Address}

theorem movedAddress_le (word : graph.blockList.length < 2 ^ 64) {first second : Address}
    (firstMember : first ∈ graph.blocks.addresses) (secondMember : second ∈ graph.blocks.addresses)
    (le : first ≤ second) :
    graph.movedAddress keepAddresses first ≤ graph.movedAddress keepAddresses second := by
  rcases UInt64.le_iff_lt_or_eq.mp le with less | same
  · exact UInt64.le_of_lt (movedAddress_lt word firstMember secondMember less)
  · exact same ▸ UInt64.le_refl _

theorem map_address_rebuiltBlock (graph : Graph) (keepAddresses : Bool) (blocks : List Block) :
    (blocks.map (graph.rebuiltBlock keepAddresses)).map Block.address =
      (blocks.map Block.address).map (graph.movedAddress keepAddresses) := by
  rw [List.map_map, List.map_map]
  rfl

theorem mem_address_ownBlocks (laid : graph.Laid)
    (found : graph.functions[function.address]? = some function) {address : Address} :
    address ∈ (graph.ownBlocks (graph.functions.rank function.address)).map Block.address ↔
      address ∈ function.blocks := by
  rw [List.mem_map, laid.mem_blocks_iff found]
  simp only [laid.mem_ownBlocks found]
  constructor
  · rintro ⟨block, ⟨listed, parent⟩, rfl⟩
    exact ⟨block, laid.mem_blockList.mp listed, parent⟩
  · rintro ⟨block, there, parent⟩
    exact ⟨block, ⟨AddressMap.mem_contents_of_getElem? there, parent⟩, laid.blockKey there⟩

theorem any_isEntry_ownBlocks (laid : graph.Laid)
    (found : graph.functions[function.address]? = some function) :
    (graph.ownBlocks (graph.functions.rank function.address)).any Block.isEntry = true ↔
      function.address ∈ function.blocks := by
  rw [← mem_address_ownBlocks laid found, List.any_eq_true, List.mem_map]
  refine exists_congr fun block => and_congr_right fun own => ?_
  rw [Block.isEntry, ((laid.mem_ownBlocks found).mp own).2, beq_iff_eq, Option.some.injEq, eq_comm]

/-- A rebuilt function has an address if it has blocks. -/
theorem resolvedAddress?_bareDraft (laid : graph.Laid) (word : graph.blockList.length < 2 ^ 64)
    (found : graph.functions[function.address]? = some function) :
    (graph.bareDraft keepAddresses function).resolvedAddress? =
      function.anchor?.map (graph.movedAddress keepAddresses) := by
  have entry := any_isEntry_ownBlocks laid found
  have blockAddress {address : Address} (member : address ∈ function.blocks) :
      address ∈ graph.blocks.addresses := by
    obtain ⟨block, there, _⟩ := laid.member found address member
    exact AddressMap.mem_addresses_of_getElem? there
  unfold FunctionDraft.resolvedAddress? bareDraft Function.anchor?
  dsimp only
  by_cases own : function.address ∈ function.blocks
  · rw [if_pos own, if_pos (entry.mpr own)]
    rfl
  · rw [if_neg own, if_neg fun any => own (entry.mp any)]
    have addresses (address : Address) : address ∈
        (((graph.ownBlocks (graph.functions.rank function.address)).map
          (graph.rebuiltBlock keepAddresses)).map Block.address) ↔
        ∃ old ∈ function.blocks, graph.movedAddress keepAddresses old = address := by
      rw [map_address_rebuiltBlock, List.mem_map]
      simp only [mem_address_ownBlocks laid found]
    cases lowest : function.blocks.min? with
    | none =>
      rw [Option.map_none, List.min?_eq_none_iff, List.eq_nil_iff_forall_not_mem]
      intro address member
      obtain ⟨old, oldMember, _⟩ := (addresses address).mp member
      rw [List.min?_eq_none_iff.mp lowest] at oldMember
      exact List.not_mem_nil oldMember
    | some least =>
      obtain ⟨member, below⟩ := List.min?_eq_some_iff.mp lowest
      rw [Option.map_some, List.min?_eq_some_iff]
      refine ⟨(addresses _).mpr ⟨least, member, rfl⟩, fun address other => ?_⟩
      obtain ⟨old, oldMember, rfl⟩ := (addresses address).mp other
      exact movedAddress_le word (blockAddress member) (blockAddress oldMember)
        (below old oldMember)

/-! ### The batch -/

/-- A function that is found again, with the name that it is numbered under and its block there. -/
structure Anchored where
  name : String
  function : Function
  anchor : Address

/-- The functions that are found again, in the order of their own addresses. -/
def anchored (graph : Graph) : List Anchored :=
  ((Compact.namesOf graph.functionList).zip graph.functionList).filterMap fun entry =>
    entry.2.anchor?.map fun anchor => ⟨entry.1, entry.2, anchor⟩

/-- A function after it was rebuilt. A name that only restates the new address is dropped. -/
def namedDraft (graph : Graph) (keepAddresses : Bool) (entry : Anchored) : FunctionDraft :=
  { graph.bareDraft keepAddresses entry.function with
    name := if entry.name = unnamedFunctionName (graph.movedAddress keepAddresses entry.anchor)
      then none else some entry.name
    isExternal := entry.function.isExternal }

/-- The addresses of the functions after they were rebuilt. -/
def movedHomes (graph : Graph) (keepAddresses : Bool) : List Address :=
  graph.anchored.map fun entry => graph.movedAddress keepAddresses entry.anchor

theorem mem_anchored {entry : Anchored} :
    entry ∈ graph.anchored ↔ ∃ number : Nat,
      (Compact.namesOf graph.functionList)[number]? = some entry.name ∧
        graph.functionList[number]? = some entry.function ∧
        entry.function.anchor? = some entry.anchor := by
  simp only [anchored, List.mem_filterMap, Option.map_eq_some_iff, Prod.exists]
  constructor
  · rintro ⟨name, function, member, anchor, found, rfl⟩
    obtain ⟨number, there⟩ := List.getElem?_of_mem member
    obtain ⟨named, listed⟩ := List.getElem?_zip_eq_some.mp there
    exact ⟨number, named, listed, found⟩
  · rintro ⟨number, named, listed, found⟩
    exact ⟨_, _, List.mem_of_getElem? (List.getElem?_zip_eq_some.mpr ⟨named, listed⟩), _, found,
      rfl⟩

theorem Anchored.found (laid : graph.Laid) {entry : Anchored} (member : entry ∈ graph.anchored) :
    graph.functions[entry.function.address]? = some entry.function := by
  obtain ⟨_, _, listed, _⟩ := mem_anchored.mp member
  exact laid.mem_functionList.mp (List.mem_of_getElem? listed)

theorem exists_anchored (found : graph.functions[function.address]? = some function)
    (there : function.anchor? = some anchor) :
    ∃ name, (Compact.namesOf graph.functionList)[graph.functions.rank function.address]? =
        some name ∧ ⟨name, function, anchor⟩ ∈ graph.anchored := by
  have listed : graph.functionList[graph.functions.rank function.address]? = some function :=
    AddressMap.getElem?_contents_eq_some_iff.mpr ⟨_, found, rfl⟩
  have inside := (List.getElem?_eq_some_iff.mp listed).1
  rw [← Compact.length_namesOf] at inside
  have named := List.getElem?_eq_getElem inside
  exact ⟨_, named, mem_anchored.mpr ⟨_, named, listed, there⟩⟩

theorem isEmpty_ownBlocks (laid : graph.Laid)
    (found : graph.functions[function.address]? = some function) :
    (graph.ownBlocks (graph.functions.rank function.address)).isEmpty = true ↔
      function.anchor? = none := by
  rw [Function.anchor?_eq_none_iff, List.isEmpty_iff, ← List.map_eq_nil_iff (f := Block.address),
    List.eq_nil_iff_forall_not_mem, List.eq_nil_iff_forall_not_mem]
  simp only [mem_address_ownBlocks laid found]

theorem namedDraft?_bareDraft (laid : graph.Laid) (word : graph.blockList.length < 2 ^ 64)
    (found : graph.functions[function.address]? = some function) :
    Compact.namedDraft? name (graph.bareDraft keepAddresses function) =
      function.anchor?.map fun anchor => graph.namedDraft keepAddresses ⟨name, function, anchor⟩ := by
  unfold Compact.namedDraft?
  rw [resolvedAddress?_bareDraft laid word found]
  cases there : function.anchor? with
  | none => rfl
  | some anchor =>
    have some_block : (graph.ownBlocks (graph.functions.rank function.address)).isEmpty = false := by
      rw [Bool.eq_false_iff, Ne, isEmpty_ownBlocks laid found, there]
      exact Option.some_ne_none anchor
    have isExternal : (graph.bareDraft keepAddresses function).isExternal = function.isExternal := by
      simp only [bareDraft, some_block, Bool.not_false, Bool.and_true]
    simp only [Option.map_some, namedDraft, ← isExternal]
    split <;> rfl

theorem namedDrafts_eq (laid : graph.Laid) (word : graph.blockList.length < 2 ^ 64) :
    Compact.namedDrafts graph keepAddresses =
      graph.anchored.map (graph.namedDraft keepAddresses) := by
  rw [Compact.namedDrafts, List.zip_map_right, List.filterMap_map, anchored, List.map_filterMap]
  refine List.filterMap_congr fun entry member => ?_
  rw [Option.map_map]
  exact namedDraft?_bareDraft laid word (laid.mem_functionList.mp (List.of_mem_zip member).2)

theorem movedHomes_zip_namedDrafts (laid : graph.Laid) (word : graph.blockList.length < 2 ^ 64) :
    (graph.movedHomes keepAddresses).zip (Compact.namedDrafts graph keepAddresses) =
      graph.anchored.map fun entry =>
        (graph.movedAddress keepAddresses entry.anchor, graph.namedDraft keepAddresses entry) := by
  rw [movedHomes, namedDrafts_eq laid word, List.zip_map']

/-- Different functions are found again at different blocks. -/
theorem anchored_distinct (laid : graph.Laid) :
    graph.anchored.Pairwise fun first second =>
      first.function.address ≠ second.function.address ∧ first.anchor ≠ second.anchor := by
  have functions : ((Compact.namesOf graph.functionList).zip graph.functionList).Pairwise
      fun first second => first.2.address ≠ second.2.address := by
    have distinct := laid.functionList_distinct
    rw [← List.map_snd_zip (Nat.le_of_eq (Compact.length_namesOf graph.functionList).symm),
      List.pairwise_map] at distinct
    exact distinct
  refine List.pairwise_filterMap.mpr (functions.imp_of_mem ?_)
  intro first second firstMember secondMember different entry firstFound other secondFound
  obtain ⟨anchor, there, rfl⟩ := Option.map_eq_some_iff.mp firstFound
  obtain ⟨otherAnchor, otherThere, rfl⟩ := Option.map_eq_some_iff.mp secondFound
  refine ⟨different, fun same => different ?_⟩
  obtain rfl : anchor = otherAnchor := same
  have found {entry : String × Function} (member : entry ∈
      (Compact.namesOf graph.functionList).zip graph.functionList) :=
    laid.mem_functionList.mp (List.of_mem_zip member).2
  obtain ⟨block, blockFound, parent⟩ := laid.member (found firstMember) anchor
    (Function.mem_blocks_of_anchor? there)
  obtain ⟨otherBlock, otherFound, otherParent⟩ := laid.member (found secondMember) anchor
    (Function.mem_blocks_of_anchor? otherThere)
  rw [blockFound, Option.some.injEq] at otherFound
  rw [← otherFound, parent, Option.some.injEq] at otherParent
  exact otherParent

theorem flatMap_blocks_namedDrafts (laid : graph.Laid) (word : graph.blockList.length < 2 ^ 64) :
    (Compact.namedDrafts graph keepAddresses).flatMap FunctionDraft.blocks =
      (graph.anchored.flatMap fun entry =>
        graph.ownBlocks (graph.functions.rank entry.function.address)).map
          (graph.rebuiltBlock keepAddresses) := by
  rw [namedDrafts_eq laid word, List.flatMap_map, List.map_flatMap]
  rfl

/-- Every block belongs to a function that is found again. -/
theorem mem_flatMap_ownBlocks (laid : graph.Laid) :
    (block ∈ graph.anchored.flatMap fun entry =>
      graph.ownBlocks (graph.functions.rank entry.function.address)) ↔
        block ∈ graph.blockList := by
  rw [List.mem_flatMap]
  constructor
  · rintro ⟨entry, member, own⟩
    exact ((laid.mem_ownBlocks (Anchored.found laid member)).mp own).1
  · intro listed
    obtain ⟨function, found, parent⟩ := laid.exists_parent listed
    have own := (laid.mem_ownBlocks found).mpr ⟨listed, parent⟩
    cases there : function.anchor? with
    | none =>
      rw [← isEmpty_ownBlocks laid found, List.isEmpty_iff] at there
      exact absurd (there ▸ own) List.not_mem_nil
    | some anchor =>
      obtain ⟨name, _, member⟩ := exists_anchored found there
      exact ⟨_, member, own⟩

/-- Functions do not share blocks. -/
theorem nodup_flatMap_ownBlocks (laid : graph.Laid) :
    (graph.anchored.flatMap fun entry =>
      graph.ownBlocks (graph.functions.rank entry.function.address)).Nodup := by
  have distinct : graph.blockList.Nodup := by
    refine List.Nodup.of_map Block.address ?_
    rw [← laid.addresses_blocks]
    exact graph.blocks.nodup_addresses
  refine List.nodup_flatMap.mpr ⟨fun entry _ => distinct.filter _, ?_⟩
  refine (anchored_distinct laid).imp_of_mem fun {first second} firstMember secondMember
    different block inFirst inSecond => different.1 ?_
  have parent := ((laid.mem_ownBlocks (Anchored.found laid firstMember)).mp inFirst).2
  have otherParent := ((laid.mem_ownBlocks (Anchored.found laid secondMember)).mp inSecond).2
  exact Option.some.inj (parent.symm.trans otherParent)

theorem anchor_mem_addresses (laid : graph.Laid) {entry : Anchored}
    (member : entry ∈ graph.anchored) : entry.anchor ∈ graph.blocks.addresses := by
  obtain ⟨_, _, _, there⟩ := mem_anchored.mp member
  obtain ⟨block, found, _⟩ := laid.member (Anchored.found laid member) entry.anchor
    (Function.mem_blocks_of_anchor? there)
  exact AddressMap.mem_addresses_of_getElem? found

/-- The rebuilt functions can be added to a graph that has none. -/
theorem admits_namedDrafts (keepAddresses : Bool) (laid : graph.Laid)
    (word : graph.blockList.length < 2 ^ 64) :
    graph.bare.Admits (Compact.namedDrafts graph keepAddresses)
      (graph.movedHomes keepAddresses) where
  resolved := by
    rw [namedDrafts_eq laid word, movedHomes, List.map_map, List.map_map]
    refine List.map_congr_left fun entry member => ?_
    obtain ⟨_, _, _, there⟩ := mem_anchored.mp member
    exact (resolvedAddress?_bareDraft laid word (Anchored.found laid member)).trans
      (congrArg (Option.map _) there)
  functionsFree _ _ := Std.ExtTreeMap.getElem?_empty
  functionsDistinct := by
    refine List.pairwise_map.mpr ((anchored_distinct laid).imp_of_mem ?_)
    intro first second firstMember secondMember different same
    exact different.2 (movedAddress_inj word (anchor_mem_addresses laid firstMember)
      (anchor_mem_addresses laid secondMember) same)
  blocksFree _ _ := Std.ExtTreeMap.getElem?_empty
  blocksDistinct := by
    rw [flatMap_blocks_namedDrafts laid word, map_address_rebuiltBlock, List.map_map]
    refine (nodup_flatMap_ownBlocks laid).map_on
      fun first firstMember second secondMember same => ?_
    have firstListed := (mem_flatMap_ownBlocks laid).mp firstMember
    have secondListed := (mem_flatMap_ownBlocks laid).mp secondMember
    have addresses := movedAddress_inj word (laid.address_mem firstListed)
      (laid.address_mem secondListed) same
    have firstFound := laid.mem_blockList.mp firstListed
    rw [addresses, laid.mem_blockList.mp secondListed, Option.some.injEq] at firstFound
    exact firstFound.symm
  matchesLines := by
    rw [flatMap_blocks_namedDrafts laid word]
    intro rebuilt member
    obtain ⟨block, own, rfl⟩ := List.mem_map.mp member
    have matched := laid.lineAddresses
      (laid.mem_blockList.mp ((mem_flatMap_ownBlocks laid).mp own))
    cases keepAddresses with
    | true => exact matched
    | false => exact fun present => absurd rfl present

/-! ### The restored graph -/

/-- The rebuilt functions of a graph in a graph of their own, without wiring. -/
def unwired (graph : Graph) (keepAddresses : Bool) : Graph :=
  graph.bare.placeAll (graph.movedHomes keepAddresses) (Compact.namedDrafts graph keepAddresses)

/-- The graph that comes out when all functions of a graph were rebuilt. -/
def restored (graph : Graph) (keepAddresses : Bool) : Graph := (graph.unwired keepAddresses).wire

theorem addFunctions_namedDrafts (laid : graph.Laid) (word : graph.blockList.length < 2 ^ 64) :
    graph.bare.addFunctions (Compact.namedDrafts graph keepAddresses) false =
      .ok (graph.restored keepAddresses) :=
  addFunctions_eq_ok_iff.mpr ⟨_, admits_namedDrafts keepAddresses laid word, rfl⟩

theorem restored_eq (graph : Graph) (keepAddresses : Bool) :
    graph.restored keepAddresses =
      { graph.unwired keepAddresses with blocks := (graph.restored keepAddresses).blocks } :=
  foldl_connect_eq _ _

theorem records_restored (graph : Graph) (keepAddresses : Bool) :
    (graph.restored keepAddresses).normalizer = graph.normalizer ∧
      (graph.restored keepAddresses).metadata = graph.metadata := by
  rw [restored_eq, unwired, placeAll_eq]
  exact ⟨rfl, rfl⟩

/-- The functions of the restored graph are those that are found again. -/
theorem getElem?_functions_restored (laid : graph.Laid) (word : graph.blockList.length < 2 ^ 64)
    {address : Address} :
    (graph.restored keepAddresses).functions[address]? = some function ↔
      ∃ entry ∈ graph.anchored, graph.movedAddress keepAddresses entry.anchor = address ∧
        (graph.namedDraft keepAddresses entry).placed address = function := by
  have absent : graph.bare.functions[address]? ≠ some function := by
    rw [bare, withMetadata, empty, Std.ExtTreeMap.getElem?_empty]
    exact Option.some_ne_none function ∘ Eq.symm
  rw [restored_eq]
  refine (admits_namedDrafts keepAddresses laid word).getElem?_functions.trans ?_
  rw [or_iff_left fun both => absent both.2, placedFunctions, movedHomes_zip_namedDrafts laid word,
    List.map_map, List.mem_map]
  constructor
  · rintro ⟨⟨entry, member, rfl⟩, rfl⟩
    exact ⟨entry, member, rfl, rfl⟩
  · rintro ⟨entry, member, rfl, rfl⟩
    exact ⟨⟨entry, member, rfl⟩, rfl⟩

/-- Where the function of a block is found again. -/
def movedParent? (graph : Graph) (keepAddresses : Bool) (block : Block) : Option Address :=
  (block.parent.bind fun home => graph.functions[home]?.bind Function.anchor?).map
    (graph.movedAddress keepAddresses)

/-- A rebuilt block within its function. -/
def restoredBlock (graph : Graph) (keepAddresses : Bool) (block : Block) : Block :=
  { graph.rebuiltBlock keepAddresses block with parent := graph.movedParent? keepAddresses block }

theorem movedParent?_eq (found : graph.functions[function.address]? = some function)
    (there : function.anchor? = some anchor) (parent : block.parent = some function.address) :
    graph.movedParent? keepAddresses block = some (graph.movedAddress keepAddresses anchor) := by
  simp only [movedParent?, parent, Option.bind_some, found, there, Option.map_some]

theorem mem_adoptedBlocks_restored (laid : graph.Laid) (word : graph.blockList.length < 2 ^ 64) :
    block ∈ adoptedBlocks (graph.movedHomes keepAddresses)
        (Compact.namedDrafts graph keepAddresses) ↔
      ∃ old ∈ graph.blockList, graph.restoredBlock keepAddresses old = block := by
  have parent_eq {entry : Anchored} (member : entry ∈ graph.anchored) {old : Block}
      (own : old ∈ graph.ownBlocks (graph.functions.rank entry.function.address)) :
      graph.movedParent? keepAddresses old =
        some (graph.movedAddress keepAddresses entry.anchor) := by
    have found := Anchored.found laid member
    obtain ⟨_, _, _, there⟩ := mem_anchored.mp member
    exact movedParent?_eq found there ((laid.mem_ownBlocks found).mp own).2
  rw [adoptedBlocks, movedHomes_zip_namedDrafts laid word, List.flatMap_map, List.mem_flatMap]
  simp only [← mem_flatMap_ownBlocks laid, List.mem_flatMap]
  constructor
  · rintro ⟨entry, member, adopted⟩
    obtain ⟨rebuilt, rebuiltMember, rfl⟩ := List.mem_map.mp adopted
    obtain ⟨old, own, rfl⟩ := List.mem_map.mp rebuiltMember
    refine ⟨old, ⟨entry, member, own⟩, ?_⟩
    rw [restoredBlock, parent_eq member own]
  · rintro ⟨old, ⟨entry, member, own⟩, rfl⟩
    refine ⟨entry, member, List.mem_map.mpr ⟨_, List.mem_map_of_mem own, ?_⟩⟩
    rw [restoredBlock, parent_eq member own]

theorem getElem?_blocks_unwired (laid : graph.Laid) (word : graph.blockList.length < 2 ^ 64)
    {address : Address} :
    (graph.unwired keepAddresses).blocks[address]? = some block ↔
      ∃ old ∈ graph.blockList, graph.movedAddress keepAddresses old.address = address ∧
        graph.restoredBlock keepAddresses old = block := by
  have absent : graph.bare.blocks[address]? ≠ some block := by
    rw [bare, withMetadata, empty, Std.ExtTreeMap.getElem?_empty]
    exact Option.some_ne_none block ∘ Eq.symm
  refine (admits_namedDrafts keepAddresses laid word).getElem?_blocks.trans ?_
  rw [or_iff_left fun both => absent both.2, mem_adoptedBlocks_restored laid word]
  constructor
  · rintro ⟨⟨old, listed, rfl⟩, rfl⟩
    exact ⟨old, listed, rfl, rfl⟩
  · rintro ⟨old, listed, rfl, rfl⟩
    exact ⟨⟨old, listed, rfl⟩, rfl⟩

/-! ### Blocks of the restored graph -/

/-- The restored graph before it was wired. -/
theorem laid_unwired (laid : graph.Laid) (closed : graph.danglingEdges = [])
    (word : graph.blockList.length < 2 ^ 64) : (graph.unwired keepAddresses).Laid := by
  have bareLaid : graph.bare.Laid := sound_of_empty.toLaid
  refine bareLaid.placeAll (admits_namedDrafts keepAddresses laid word)
    fun draft listed rebuilt own => ?_
  have member : rebuilt ∈ (Compact.namedDrafts graph keepAddresses).flatMap FunctionDraft.blocks :=
    List.mem_flatMap.mpr ⟨draft, listed, own⟩
  rw [flatMap_blocks_namedDrafts laid word] at member
  obtain ⟨block, blockOwn, rfl⟩ := List.mem_map.mp member
  have blockListed := (mem_flatMap_ownBlocks laid).mp blockOwn
  refine ⟨nodup_movedEdges laid closed word blockListed, fun edge edgeMember => ?_, List.nodup_nil,
    fun _ edgeMember => (List.not_mem_nil edgeMember).elim⟩
  obtain ⟨old, _, rfl⟩ := List.mem_map.mp edgeMember
  rfl

/-- A block is found in the restored graph, but for the edges that enter it. -/
theorem block_restored (laid : graph.Laid) (closed : graph.danglingEdges = [])
    (word : graph.blockList.length < 2 ^ 64) (listed : block ∈ graph.blockList) :
    ∃ edgesIn, (graph.restored keepAddresses).blocks[
        graph.movedAddress keepAddresses block.address]? =
      some { graph.restoredBlock keepAddresses block with edgesIn } := by
  refine (laid_unwired laid closed word).getElem?_wire (fun found => ?_)
    ((getElem?_blocks_unwired laid word).mpr ⟨block, listed, rfl, rfl⟩)
  obtain ⟨old, _, _, rfl⟩ := (getElem?_blocks_unwired laid word).mp found
  rfl

theorem blockAddresses_restored (laid : graph.Laid) (closed : graph.danglingEdges = [])
    (word : graph.blockList.length < 2 ^ 64) :
    (graph.restored keepAddresses).blocks.addresses =
      graph.blocks.addresses.map (graph.movedAddress keepAddresses) := by
  refine AddressMap.addresses_eq_of_ascending (movedAddresses_ascend word
    graph.blocks.addresses_ascend (List.Subset.refl _)) fun address => ?_
  rw [laid.addresses_blocks, List.map_map, List.mem_map, AddressMap.mem_addresses]
  constructor
  · rintro ⟨block, found⟩
    rw [restored, wire, getElem?_foldl_connect, Option.map_eq_some_iff] at found
    obtain ⟨before, beforeFound, _⟩ := found
    obtain ⟨old, oldListed, same, rfl⟩ := (getElem?_blocks_unwired laid word).mp beforeFound
    exact ⟨old, oldListed, same⟩
  · rintro ⟨old, oldListed, rfl⟩
    obtain ⟨edgesIn, found⟩ := block_restored laid closed word oldListed
    exact ⟨_, found⟩

/-- The edges of the restored graph are those of the graph, moved. -/
theorem mem_listedEdges_restored (laid : graph.Laid) (word : graph.blockList.length < 2 ^ 64)
    {edge : Edge} (listed : edge ∈ (graph.restored keepAddresses).listedEdges) :
    ∃ old ∈ graph.blockList, edge ∈ graph.movedEdges keepAddresses old := by
  have before : edge ∈ (graph.unwired keepAddresses).listedEdges :=
    (mem_listedEdges_foldl_connect.mp listed).elim id fun added => added.1
  obtain ⟨address, block, found, member⟩ := (mem_listedEdges _ edge).mp before
  obtain ⟨old, oldListed, _, rfl⟩ := (getElem?_blocks_unwired laid word).mp found
  exact ⟨old, oldListed, member.resolve_right List.not_mem_nil⟩

/-- The restored graph has no dangling edges. -/
theorem danglingEdges_restored (laid : graph.Laid) (closed : graph.danglingEdges = [])
    (word : graph.blockList.length < 2 ^ 64) :
    (graph.restored keepAddresses).danglingEdges = [] := by
  refine danglingEdges_eq_nil_iff.mpr fun edge listed => (spans_iff _ _).mpr ?_
  obtain ⟨old, oldListed, member⟩ := mem_listedEdges_restored laid word listed
  obtain ⟨before, beforeMember, rfl⟩ := List.mem_map.mp member
  simp only [← AddressMap.mem_addresses]
  rw [blockAddresses_restored laid closed word]
  exact ⟨List.mem_map_of_mem (laid.address_mem oldListed), List.mem_map_of_mem
    (target_mem_addresses closed oldListed (mem_callsFirst.mp beforeMember))⟩

/-! ### Entry blocks -/

/-- Whether every function begins at a block of its own. -/
def HasEntries (graph : Graph) : Prop :=
  ∀ function ∈ graph.functionList, ∃ block, graph.entryBlock function = .ok block

theorem HasEntries.exists_block (entries : graph.HasEntries) (laid : graph.Laid) {home : Address}
    (found : graph.functions[home]? = some function) :
    ∃ block, graph.blocks[home]? = some block ∧ block.parent = some home := by
  obtain rfl := laid.functionKey found
  obtain ⟨block, entry⟩ := entries function (laid.mem_functionList.mpr found)
  exact ⟨block, entryBlock_eq_ok_iff.mp entry⟩

theorem HasEntries.addresses_subset (entries : graph.HasEntries) (laid : graph.Laid) :
    graph.functions.addresses ⊆ graph.blocks.addresses := by
  intro home member
  obtain ⟨function, found⟩ := (AddressMap.mem_addresses _ _).mp member
  obtain ⟨block, there, _⟩ := entries.exists_block laid found
  exact AddressMap.mem_addresses_of_getElem? there

theorem HasEntries.of_rewrites {rewrite : String → String} {next : Graph}
    (entries : graph.HasEntries) (rewrites : graph.Rewrites rewrite next) : next.HasEntries := by
  intro function listed
  rw [functionList, rewrites.functions] at listed
  obtain ⟨block, entry⟩ := entries function listed
  obtain ⟨found, parent⟩ := entryBlock_eq_ok_iff.mp entry
  refine ⟨{ block with lines := block.lines.map rewrite }, entryBlock_eq_ok_iff.mpr ⟨?_, parent⟩⟩
  rw [rewrites.blocks, Std.ExtTreeMap.getElem?_map, found]
  rfl

/-- With an entry block of its own, a function is found again there. -/
theorem HasEntries.anchor? (entries : graph.HasEntries) (laid : graph.Laid)
    (found : graph.functions[function.address]? = some function) :
    function.anchor? = some function.address := by
  obtain ⟨block, there, parent⟩ := entries.exists_block laid found
  exact if_pos ((laid.mem_blocks_iff found).mpr ⟨block, there, parent⟩)

theorem HasEntries.movedParent?_eq (entries : graph.HasEntries) (laid : graph.Laid)
    (listed : block ∈ graph.blockList) :
    graph.movedParent? keepAddresses block =
      block.parent.map (graph.movedAddress keepAddresses) := by
  obtain ⟨function, found, parent⟩ := laid.exists_parent listed
  rw [Graph.movedParent?_eq found (entries.anchor? laid found) parent, parent]
  rfl

/-! ### Functions of the restored graph -/

theorem functionAddresses_restored (laid : graph.Laid) (word : graph.blockList.length < 2 ^ 64)
    (entries : graph.HasEntries) :
    (graph.restored keepAddresses).functions.addresses =
      graph.functions.addresses.map (graph.movedAddress keepAddresses) := by
  refine AddressMap.addresses_eq_of_ascending (movedAddresses_ascend word
    graph.functions.addresses_ascend (entries.addresses_subset laid)) fun address => ?_
  rw [AddressMap.mem_addresses, List.mem_map]
  simp only [getElem?_functions_restored laid word, AddressMap.mem_addresses]
  constructor
  · rintro ⟨_, entry, member, rfl, _⟩
    have found := Anchored.found laid member
    obtain ⟨_, _, _, there⟩ := mem_anchored.mp member
    rw [entries.anchor? laid found, Option.some.injEq] at there
    exact ⟨entry.anchor, ⟨entry.function, there ▸ found⟩, rfl⟩
  · rintro ⟨home, ⟨function, found⟩, rfl⟩
    obtain rfl := laid.functionKey found
    obtain ⟨name, _, member⟩ := exists_anchored found (entries.anchor? laid found)
    exact ⟨_, _, member, rfl, rfl⟩

/-- A function is found in the restored graph, under the name that it was numbered under. -/
theorem function_restored (laid : graph.Laid) (word : graph.blockList.length < 2 ^ 64)
    (found : graph.functions[function.address]? = some function)
    (there : function.anchor? = some anchor) :
    ∃ name, (Compact.namesOf graph.functionList)[graph.functions.rank function.address]? =
        some name ∧
      (graph.restored keepAddresses).functions[graph.movedAddress keepAddresses anchor]? =
        some ((graph.namedDraft keepAddresses ⟨name, function, anchor⟩).placed
          (graph.movedAddress keepAddresses anchor)) := by
  obtain ⟨name, named, member⟩ := exists_anchored found there
  exact ⟨name, named, (getElem?_functions_restored laid word).mpr ⟨_, member, rfl, rfl⟩⟩

theorem displayName_namedDraft {entry : Anchored} (present : entry.name ≠ "") :
    ((graph.namedDraft keepAddresses entry).placed
      (graph.movedAddress keepAddresses entry.anchor)).displayName = entry.name := by
  unfold Function.displayName Function.symbol? FunctionDraft.placed namedDraft
  dsimp only
  split
  · rename_i restates
    exact restates.symm
  · rw [Option.filter_some, if_pos, Option.getD_some]
    rwa [Bool.not_eq_true', ← Bool.not_eq_true, String.isEmpty_iff]

/-- The names of the restored functions are those that the functions were numbered under. -/
theorem map_displayName_restored (laid : graph.Laid) (word : graph.blockList.length < 2 ^ 64)
    (entries : graph.HasEntries) :
    (graph.restored keepAddresses).functionList.map Function.displayName =
      Compact.namesOf graph.functionList := by
  refine List.ext_getElem? fun number => ?_
  rw [List.getElem?_map, functionList, AddressMap.getElem?_contents,
    functionAddresses_restored laid word entries, List.getElem?_map]
  cases there : graph.functions.addresses[number]? with
  | none =>
    rw [List.getElem?_eq_none_iff, AddressMap.length_addresses, ← AddressMap.length_contents]
      at there
    rw [List.getElem?_eq_none (Compact.length_namesOf _ ▸ there)]
    rfl
  | some home =>
    obtain ⟨function, found⟩ := (AddressMap.mem_addresses _ _).mp (List.mem_of_getElem? there)
    obtain rfl := laid.functionKey found
    obtain ⟨name, named, restoredFound⟩ :=
      function_restored laid word found (entries.anchor? laid found)
    rw [AddressMap.rank_eq there] at named
    rw [named, Option.map_some, Option.bind_some, restoredFound, Option.map_some,
      displayName_namedDraft (Compact.ne_empty_of_mem_namesOf (List.mem_of_getElem? named))]

end Graph

/-! ### Expanding -/

namespace Compact

theorem contents_tokens_own (pool current : Pool) (graph : Graph) (keepAddresses : Bool) :
    (columnsOf pool graph .empty keepAddresses).tokens.contents current =
      tokensAfter pool graph .empty := by
  have known : (columnsOf pool graph .empty keepAddresses).tokens.contents
      (poolAfter pool graph .empty) = tokensAfter pool graph .empty :=
    contents_tokens_columnsOf (TokenStore.livesIn_empty pool)
  exact known

/-- A compact graph is expanded to the restored graph. -/
theorem toGraph_restored {pool : Pool} {graph : Graph} {keepAddresses : Bool}
    (fits : Fits pool graph .empty keepAddresses)
    (held : (columnsOf pool graph .empty keepAddresses).MemorySized) (current : Pool) :
    (columnsOf pool graph .empty keepAddresses).toGraph current =
      .ok (graph.restored keepAddresses) := by
  rw [toGraph_columnsOf fits held (contents_tokens_own pool current graph keepAddresses),
    Graph.addFunctions_namedDrafts fits.laid fits.word]
  rfl

end Compact

end FlowGraph
