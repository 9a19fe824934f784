/-
This file says that the gaps of a graph are the complement of the addresses that
its lines occupy. The gaps ascend without overlap. Strictly inside of them lie
exactly the addresses above zero and below the end of the search that no block
covers, whatever the extents of the blocks are: they may overlap, lie within each
other, touch, or be equal.

A gap behind some lines begins with the highest address of these, so an address
in a gap may still belong to a block. Lying in a gap and lying strictly inside of
one both mean that some gap reaches over a short range: the address alone, or the
address together with the one in front of it, which zero does not have.
-/

import FlowGraph.Proofs.Gaps
import FlowGraph.Proofs.Reachable

namespace FlowGraph

/-! ### Addresses in blocks and gaps -/

namespace Block

/-- Whether an address lies between the lowest and the highest instruction of a block. Both of them
are part of the block. -/
def Covers (block : Block) (address : Address) : Prop :=
  block.extent.1 ≤ address ∧ address ≤ block.extent.2

instance (block : Block) (address : Address) : Decidable (block.Covers address) :=
  inferInstanceAs (Decidable (_ ∧ _))

theorem beside_iff_not_covers {block : Block} {address : Address} (positive : 0 < address.toNat) :
    Gap.Beside (address.toNat - 1) (address.toNat + 1) block.extent ↔ ¬ block.Covers address := by
  unfold Covers Gap.Beside
  rw [UInt64.le_iff_toNat_le, UInt64.le_iff_toNat_le]
  omega

theorem beside_iff {block : Block} {address : Address} :
    Gap.Beside address.toNat (address.toNat + 1) block.extent ↔
      ¬ (block.extent.1 ≤ address ∧ address < block.extent.2) := by
  unfold Gap.Beside
  rw [UInt64.le_iff_toNat_le, UInt64.lt_iff_toNat_lt]
  omega

end Block

namespace Gap

/-- Whether an address lies in a gap, where the start is part of the gap and the end is not. -/
def Contains (gap : Gap) (address : Address) : Prop :=
  gap.start ≤ address ∧ address < gap.stop

/-- Whether an address lies strictly inside a gap. -/
def Surrounds (gap : Gap) (address : Address) : Prop :=
  gap.start < address ∧ address < gap.stop

theorem contains_iff {gap : Gap} {address : Address} :
    gap.Contains address ↔ gap.Encloses address.toNat (address.toNat + 1) := by
  unfold Contains Encloses
  rw [UInt64.le_iff_toNat_le, UInt64.lt_iff_toNat_lt, Nat.succ_le_iff]

theorem surrounds_iff {gap : Gap} {address : Address} :
    gap.Surrounds address ↔
      0 < address.toNat ∧ gap.Encloses (address.toNat - 1) (address.toNat + 1) := by
  unfold Surrounds Encloses
  rw [UInt64.lt_iff_toNat_lt, UInt64.lt_iff_toNat_lt]
  omega

/-! ### The order of gaps -/

variable {cursor limit : Address} {ranges : List (Address × Address)}

theorem Ascend.le_start (ascend : Ascend cursor ranges) :
    ∀ gap ∈ between cursor limit ranges, cursor ≤ gap.start := by
  induction ranges generalizing cursor with
  | nil => exact List.forall_mem_singleton.mpr (UInt64.le_refl cursor)
  | cons range rest inductionHypothesis =>
    obtain ⟨follows, extent, later⟩ := ascend
    have within : cursor ≤ range.2 := UInt64.le_iff_toNat_le.mpr (Nat.le_trans follows extent)
    exact List.forall_mem_cons.mpr ⟨UInt64.le_refl cursor, fun gap member =>
      UInt64.le_trans within (inductionHypothesis later gap member)⟩

/-- Gaps between ranges that follow each other end before the next ones start. -/
theorem Ascend.pairwise_between (ascend : Ascend cursor ranges) :
    (between cursor limit ranges).Pairwise fun gap later => gap.stop ≤ later.start := by
  induction ranges generalizing cursor with
  | nil => exact List.pairwise_singleton _ _
  | cons range rest inductionHypothesis =>
    obtain ⟨_, extent, later⟩ := ascend
    exact List.pairwise_cons.mpr ⟨fun gap member =>
      UInt64.le_trans (UInt64.le_iff_toNat_le.mpr extent) (later.le_start gap member),
      inductionHypothesis later⟩

/-- Gaps between ranges that follow each other up to the limit end no earlier than they start. -/
theorem Ascend.start_le_stop (ascend : Ascend cursor ranges) (reached : cursor ≤ limit)
    (within : ∀ range ∈ ranges, range.2.toNat ≤ limit.toNat) :
    ∀ gap ∈ between cursor limit ranges, gap.start ≤ gap.stop := by
  induction ranges generalizing cursor with
  | nil => exact List.forall_mem_singleton.mpr reached
  | cons range rest inductionHypothesis =>
    obtain ⟨follows, _, later⟩ := ascend
    rw [List.forall_mem_cons] at within
    exact List.forall_mem_cons.mpr ⟨UInt64.le_iff_toNat_le.mpr follows,
      inductionHypothesis later (UInt64.le_iff_toNat_le.mpr within.1) within.2⟩

end Gap

namespace Graph

/-! ### The complement of the lines -/

/-- In the gaps lie the addresses below the end of the search behind which no block goes on. -/
theorem exists_free_contains_iff (graph : Graph) (address : Address) :
    (∃ gap ∈ Gap.free graph, gap.Contains address) ↔
      address.toNat < graph.searchEnd ∧
        ∀ block ∈ graph.blockList, ¬ (block.extent.1 ≤ address ∧ address < block.extent.2) := by
  simp only [Gap.contains_iff]
  rw [exists_free_encloses_iff graph (Nat.lt_succ_self _), Nat.succ_le_iff]
  simp only [Block.beside_iff]

/-- Strictly inside the gaps lie the addresses that no block covers, from above zero up to the end
of the search. -/
theorem exists_free_surrounds_iff (graph : Graph) (address : Address) :
    (∃ gap ∈ Gap.free graph, gap.Surrounds address) ↔
      0 < address.toNat ∧ address.toNat < graph.searchEnd ∧
        ∀ block ∈ graph.blockList, ¬ block.Covers address := by
  have nonempty : address.toNat - 1 < address.toNat + 1 := by omega
  simp only [Gap.surrounds_iff, and_left_comm (b := 0 < address.toNat), exists_and_left]
  refine and_congr_right fun positive => ?_
  rw [exists_free_encloses_iff graph nonempty, Nat.succ_le_iff]
  simp only [Block.beside_iff_not_covers positive]

/-- The gaps of a graph are in order and ascend without overlap. Strictly inside of them lie no
addresses but those that no block covers, and every such address below the end of the search lies
in some gap. -/
theorem gaps_complement_extents (graph : Graph) :
    (∀ gap ∈ Gap.free graph, gap.start ≤ gap.stop) ∧
      (Gap.free graph).Pairwise (fun gap later => gap.stop ≤ later.start) ∧
      (∀ address : Address, (∃ gap ∈ Gap.free graph, gap.Surrounds address) ↔
        0 < address.toNat ∧ address.toNat < graph.searchEnd ∧
          ∀ block ∈ graph.blockList, ¬ block.Covers address) ∧
      ∀ address : Address, address.toNat < graph.searchEnd →
        (∀ block ∈ graph.blockList, ¬ block.Covers address) →
          ∃ gap ∈ Gap.free graph, gap.Contains address := by
  have ascend := Gap.ascend_occupied graph
  refine ⟨ascend.start_le_stop UInt64.zero_le (Gap.occupied_le_searchLimit graph),
    ascend.pairwise_between, exists_free_surrounds_iff graph, fun address below uncovered => ?_⟩
  exact (exists_free_contains_iff graph address).mpr ⟨below, fun block listed goesOn =>
    uncovered block listed ⟨goesOn.1, UInt64.le_of_lt goesOn.2⟩⟩

/-! ### A crowded graph -/

/-- A block with two lines at these addresses. -/
def blockAcross (address low high : Address) : Block :=
  { Block.new address with lines := ["nop", "ret"], lineAddresses := [low, high] }

/-- A function whose blocks overlap, lie within each other, touch and have equal extents, up to a
block at the usual end of the search. -/
def crowdedFunction : FunctionDraft :=
  ⟨none, some "crowd", false, ∅,
    [blockAcross 16 16 48, blockAcross 17 16 48, blockAcross 24 24 32, blockAcross 40 40 64,
      blockAcross 64 64 80, blockAcross 0x100000000 0x100000000 0x100000000]⟩

/-- The graph of this function. -/
def crowdedGraph : Graph := empty.unlessFails (empty.addFunctions [crowdedFunction] false)

theorem free_crowdedGraph : Gap.free crowdedGraph =
    [⟨0, 16⟩, ⟨80, 0x100000000⟩, ⟨0x100000000, 0xffffffffffffffff⟩] := by
  have extents : crowdedGraph.blockList.map Block.extent = [(16, 48), (16, 48), (24, 32), (40, 64),
      (64, 80), (0x100000000, 0x100000000)] := by decide +kernel
  -- the kernel does not reduce the sort, but the blocks are in order already
  rw [Gap.free, Gap.occupied, extents, List.mergeSort_of_pairwise (by decide)]
  decide

/-- Where two blocks touch there is no gap, and behind the crowd there is one. -/
theorem crowdedGraph_gaps :
    Gap.free crowdedGraph =
        [⟨0, 16⟩, ⟨80, 0x100000000⟩, ⟨0x100000000, 0xffffffffffffffff⟩] ∧
      ((∃ block ∈ crowdedGraph.blockList, block.Covers 64) ∧
        ¬ ∃ gap ∈ Gap.free crowdedGraph, gap.Surrounds 64) ∧
      ((90 : Address).toNat < crowdedGraph.searchEnd ∧
        ∀ block ∈ crowdedGraph.blockList, ¬ block.Covers 90) ∧
      ∃ gap ∈ Gap.free crowdedGraph, gap.Contains 90 := by
  obtain ⟨_, _, surrounded, contained⟩ := gaps_complement_extents crowdedGraph
  have covered : ∃ block ∈ crowdedGraph.blockList, block.Covers 64 := by decide +kernel
  have below : (90 : Address).toNat < crowdedGraph.searchEnd := by decide +kernel
  have uncovered : ∀ block ∈ crowdedGraph.blockList, ¬ block.Covers 90 := by decide +kernel
  refine ⟨free_crowdedGraph, ⟨covered, fun inside => ?_⟩, ⟨below, uncovered⟩,
    contained 90 below uncovered⟩
  obtain ⟨block, listed, covers⟩ := covered
  exact ((surrounded 64).mp inside).2.2 block listed covers

end Graph

end FlowGraph
