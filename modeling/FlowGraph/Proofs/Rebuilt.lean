/-
This file says in closed form what a compact graph is expanded to. The address
of a block moves to itself if addresses were kept, and to its rank otherwise,
and both keep the order. Each block is rebuilt from its lines, its metadata and
its edges, calls first, and the functions receive their blocks in turn.
-/

import FlowGraph.Compact.Expand
import FlowGraph.Proofs.Contents
import Mathlib.Data.List.TakeWhile

namespace FlowGraph

namespace Graph

variable {graph : Graph} {keepAddresses : Bool} {block : Block}

/-! ### Moved addresses -/

/-- Where the address of a block is after the graph was rebuilt. -/
def movedAddress (graph : Graph) (keepAddresses : Bool) (address : Address) : Address :=
  if keepAddresses then address else UInt64.ofNat (graph.blocks.rank address)

/-- Moved addresses are in the same order. -/
theorem movedAddress_lt (word : graph.blockList.length < 2 ^ 64) {first second : Address}
    (firstMember : first ∈ graph.blocks.addresses) (secondMember : second ∈ graph.blocks.addresses)
    (less : first < second) :
    graph.movedAddress keepAddresses first < graph.movedAddress keepAddresses second := by
  cases keepAddresses with
  | true => exact less
  | false =>
    rw [blockList, AddressMap.length_contents] at word
    have ranks := AddressMap.rank_lt_rank firstMember secondMember less
    have inside := AddressMap.rank_lt_size secondMember
    rw [movedAddress, movedAddress, UInt64.lt_iff_toNat_lt]
    simp only [Bool.false_eq_true, if_false, UInt64.toNat_ofNat']
    omega

theorem movedAddresses_ascend (word : graph.blockList.length < 2 ^ 64) {addresses : List Address}
    (ascend : addresses.Pairwise fun first second => first < second)
    (blocks : addresses ⊆ graph.blocks.addresses) :
    (addresses.map (graph.movedAddress keepAddresses)).Pairwise fun first second =>
      first < second :=
  List.pairwise_map.mpr (ascend.imp_of_mem fun firstMember secondMember less =>
    movedAddress_lt word (blocks firstMember) (blocks secondMember) less)

theorem movedAddress_inj (word : graph.blockList.length < 2 ^ 64) {first second : Address}
    (firstMember : first ∈ graph.blocks.addresses) (secondMember : second ∈ graph.blocks.addresses)
    (same : graph.movedAddress keepAddresses first = graph.movedAddress keepAddresses second) :
    first = second := by
  have distinct : (graph.blocks.addresses.map (graph.movedAddress keepAddresses)).Nodup :=
    (movedAddresses_ascend word graph.blocks.addresses_ascend (List.Subset.refl _)).imp
      fun less => UInt64.ne_of_lt less
  exact List.inj_on_of_nodup_map distinct firstMember secondMember same

/-! ### Rebuilt blocks -/

/-- The edges of a block after the graph was rebuilt. -/
def movedEdges (graph : Graph) (keepAddresses : Bool) (block : Block) : List Edge :=
  (callsFirst block).map fun edge =>
    ⟨graph.movedAddress keepAddresses block.address, graph.movedAddress keepAddresses edge.target,
      edge.kind⟩

/-- A block after the graph was rebuilt. -/
def rebuiltBlock (graph : Graph) (keepAddresses : Bool) (block : Block) : Block :=
  { Block.new (graph.movedAddress keepAddresses block.address) with
    lines := block.lines
    metadata := block.metadata
    lineAddresses := if keepAddresses then block.lineAddresses else []
    edgesOut := graph.movedEdges keepAddresses block }

theorem mem_callsFirst {edge : Edge} : edge ∈ callsFirst block ↔ edge ∈ block.edgesOut := by
  rw [callsFirst, List.mem_append, or_comm]
  exact mem_splitEdges.symm

theorem callsFirst_perm (block : Block) : (callsFirst block).Perm block.edgesOut := by
  rw [callsFirst, Block.splitEdges, List.partition_eq_filter_filter]
  exact List.perm_append_comm.trans (List.filter_append_perm _ _)

theorem nodup_movedEdges (laid : graph.Laid) (closed : graph.danglingEdges = [])
    (word : graph.blockList.length < 2 ^ 64) (listed : block ∈ graph.blockList) :
    (graph.movedEdges keepAddresses block).Nodup := by
  have own := laid.ownEdges (laid.mem_blockList.mp listed)
  refine List.Nodup.map_on ?_ ((callsFirst_perm block).nodup_iff.mpr own.nodupOut)
  intro first firstMember second secondMember same
  have firstMember := mem_callsFirst.mp firstMember
  have secondMember := mem_callsFirst.mp secondMember
  rw [Edge.mk.injEq] at same
  have target := movedAddress_inj word (target_mem_addresses closed listed firstMember)
    (target_mem_addresses closed listed secondMember) same.2.1
  have source := (own.leaves first firstMember).trans (own.leaves second secondMember).symm
  cases first
  cases second
  exact Edge.mk.injEq .. ▸ ⟨source, target, same.2.2⟩

end Graph

namespace Compact

variable {pool current : Pool} {graph : Graph} {store : TokenStore} {keepAddresses : Bool}
  {number : Nat} {block : Block}

theorem storedAddress_toNat (address : Address) :
    storedAddress (address.toNat : Int) = .ok address := by
  rw [storedAddress, if_pos (Int.natCast_nonneg _), Int.toNat_natCast, UInt64.ofNat_toNat]

theorem rebuiltAddresses_columnsOf (laid : graph.Laid)
    (signed : keepAddresses = true → ∀ block ∈ graph.blockList, block.Signed) :
    (columnsOf pool graph store keepAddresses).rebuiltAddresses =
      .ok (graph.blocks.addresses.map (graph.movedAddress keepAddresses)) := by
  cases keepAddresses with
  | true =>
    obtain ⟨column, kept, elements⟩ := blockAddresses_columnsOf pool store (signed rfl)
    unfold rebuiltAddresses
    rw [kept]
    dsimp only
    rw [elements, laid.addresses_blocks, Outcome.mapM_eq_ok_iff, List.map_map,
      List.forall₂_map_left_iff, List.forall₂_map_right_iff, List.forall₂_same]
    exact fun block _ => storedAddress_toNat block.address
  | false =>
    unfold rebuiltAddresses
    rw [(rfl : (columnsOf pool graph store false).blockAddresses = none)]
    refine congrArg Except.ok (List.ext_getElem ?_ fun place first second => ?_)
    · rw [List.length_map, List.length_range, blockCount_columnsOf, List.length_map,
        AddressMap.length_addresses, Graph.blockList, AddressMap.length_contents]
    · rw [List.length_map] at second
      rw [List.getElem_map, List.getElem_range, List.getElem_map, Graph.movedAddress,
        AddressMap.rank_eq (List.getElem?_eq_getElem second)]
      rfl

theorem addressOf_rank (compact : Compact) (keepAddresses : Bool) {address : Address}
    (member : address ∈ graph.blocks.addresses) :
    compact.addressOf (graph.blocks.addresses.map (graph.movedAddress keepAddresses))
      (graph.blocks.rank address) = .ok (graph.movedAddress keepAddresses address) := by
  rw [addressOf, List.getElem?_map, AddressMap.getElem?_rank member]
  rfl

/-- Line addresses come back from what is kept of them. -/
theorem rebuiltLineAddresses_signedLines
    (matched : block.lineAddresses ≠ [] → block.lineAddresses.length = block.lines.length) :
    rebuiltLineAddresses block.signedLines block.lines = block.lineAddresses := by
  unfold rebuiltLineAddresses Block.signedLines
  by_cases known : block.hasLineAddresses = true
  · have all : (block.lineAddresses.map fun address => (address.toNat : Int)).takeWhile
        (fun address => 0 ≤ address) = block.lineAddresses.map fun address =>
          (address.toNat : Int) := by
      refine List.takeWhile_eq_self_iff.mpr fun value member => ?_
      obtain ⟨address, _, rfl⟩ := List.mem_map.mp member
      exact decide_eq_true (Int.natCast_nonneg _)
    have back : (block.lineAddresses.map fun address => (address.toNat : Int)).map
        (fun address => UInt64.ofNat address.toNat) = block.lineAddresses := by
      rw [List.map_map]
      refine (List.map_congr_left fun address _ => ?_).trans (List.map_id _)
      rw [Function.comp_apply, Int.toNat_natCast, UInt64.ofNat_toNat, id]
    rw [if_pos known, all, back, if_pos]
    exact matched ((Block.hasLineAddresses_iff block).mp known)
  · have empty : block.lineAddresses = [] := by
      rwa [Block.hasLineAddresses_iff, Decidable.not_not] at known
    have nothing : (List.replicate block.lines.length (-1 : Int)).takeWhile
        (fun address => 0 ≤ address) = [] := by
      cases block.lines.length <;> simp [List.replicate_succ]
    rw [if_neg known, nothing, empty, List.map_nil, ite_self]

theorem exists_blockLineAddresses (fits : Fits pool graph store keepAddresses)
    (found : graph.blockList[number]? = some block) :
    ∃ stored, (columnsOf pool graph store keepAddresses).blockLineAddresses number = .ok stored ∧
      rebuiltLineAddresses (stored.getD []) block.lines =
        if keepAddresses then block.lineAddresses else [] := by
  cases keepAddresses with
  | false =>
    refine ⟨none, blockLineAddresses_forgotten found, ?_⟩
    simp [rebuiltLineAddresses]
  | true =>
    have there := fits.laid.mem_blockList.mp (List.mem_of_getElem? found)
    exact ⟨_, blockLineAddresses_columnsOf fits.laid (fits.signed rfl) fits.sized found,
      rebuiltLineAddresses_signedLines (fits.laid.lineAddresses there)⟩

/-- The targets of a block by address instead of rank. -/
theorem mapM_addressOf_typedRanks (compact : Compact) (keepAddresses : Bool)
    (closed : graph.danglingEdges = []) (listed : block ∈ graph.blockList) :
    (graph.typedRanks block).mapM (fun target => do
      let address ← compact.addressOf
        (graph.blocks.addresses.map (graph.movedAddress keepAddresses)) target.1
      return (address, target.2)) = .ok ((Graph.callsFirst block).map fun edge =>
        (graph.movedAddress keepAddresses edge.target, edge.kind)) := by
  rw [Outcome.mapM_eq_ok_iff, Graph.typedRanks, List.forall₂_map_left_iff,
    List.forall₂_map_right_iff, List.forall₂_same]
  intro edge member
  rw [addressOf_rank _ _ (Graph.target_mem_addresses closed listed
    (Graph.mem_callsFirst.mp member))]
  rfl

theorem rebuiltBlock_columnsOf (fits : Fits pool graph store keepAddresses)
    (known : (columnsOf pool graph store keepAddresses).tokens.contents current =
      tokensAfter pool graph store)
    (found : graph.blockList[number]? = some block) :
    (columnsOf pool graph store keepAddresses).rebuiltBlock current
        (graph.blocks.addresses.map (graph.movedAddress keepAddresses)) number block.metadata =
      .ok (graph.rebuiltBlock keepAddresses block) := by
  have listed := List.mem_of_getElem? found
  have rank : graph.blocks.rank block.address = number := by
    obtain ⟨address, atAddress, ranked⟩ := AddressMap.getElem?_contents_eq_some_iff.mp found
    rw [fits.laid.blockKey atAddress, ranked]
  have address := addressOf_rank (columnsOf pool graph store keepAddresses) keepAddresses
    (fits.laid.address_mem listed)
  rw [rank] at address
  obtain ⟨stored, storedFound, lineAddresses⟩ := exists_blockLineAddresses fits found
  have edges := mapM_addressOf_typedRanks (columnsOf pool graph store keepAddresses)
    keepAddresses fits.closed listed
  have lines := blockLines_columnsOf fits.lives fits.few fits.sized known found
  have targets := blockTargets_columnsOf fits.closed fits.sized found
  have collected : (graph.movedEdges keepAddresses block).foldl Block.insertEdge [] =
      graph.movedEdges keepAddresses block :=
    Block.foldl_insertEdge_of_nodup (Graph.nodup_movedEdges fits.laid fits.closed fits.word listed)
  unfold rebuiltBlock
  refine Outcome.bind_eq_ok_iff.mpr ⟨_, address, Outcome.bind_eq_ok_iff.mpr ⟨_, storedFound,
    Outcome.bind_eq_ok_iff.mpr ⟨_, lines, Outcome.bind_eq_ok_iff.mpr ⟨_, targets,
      Outcome.bind_eq_ok_iff.mpr ⟨_, edges, congrArg Except.ok ?_⟩⟩⟩⟩⟩
  rw [Block.foldl_addOut, lineAddresses, List.map_map]
  exact congrArg (fun edgesOut =>
    { Block.new (graph.movedAddress keepAddresses block.address) with
      lines := block.lines
      metadata := block.metadata
      lineAddresses := if keepAddresses then block.lineAddresses else []
      edgesOut }) collected

end Compact

end FlowGraph
