/-
This file proves that a compact graph keeps all edges. The targets of a block
are those of its calls and then those of its normal edges, each in the order of
the block; they can be encoded again to what is stored; and the parts of the
blocks make up the whole column. Rewriting lines before does not matter, since
it leaves edges and addresses alone.
-/

import FlowGraph.Proofs.Readings
import FlowGraph.Proofs.Source

namespace FlowGraph

namespace Compact

/-- Whether a compact graph keeps the edges of a graph. What is decoded for a block are its edges;
encoding that leads back to the stored part and flags; separators are told apart from targets;
the parts make up the column; and no edge is missing or counted twice. -/
structure KeepsEdgesOf (compact : Compact) (graph : Graph) : Prop where
  blocks : compact.blockCount = graph.blockCount
  decoded : ∀ {number : Nat} {block : Block}, graph.blockList[number]? = some block →
    compact.blockTargets number = .ok (graph.typedRanks block)
  encoded : ∀ {number : Nat} {block : Block}, graph.blockList[number]? = some block →
    compact.storedTargets number =
      (encodeTargets (targetsOfKind .functionCall (graph.typedRanks block))
        (targetsOfKind .normal (graph.typedRanks block))).map fun target =>
          target.getD compact.separator
  flagged : ∀ {number : Nat} {block : Block}, graph.blockList[number]? = some block →
    ∃ flags, compact.blockFlags number = .ok flags ∧
      flags.has .call = !(targetsOfKind .functionCall (graph.typedRanks block)).isEmpty ∧
      flags.has .multi = needsSeparator (targetsOfKind .functionCall (graph.typedRanks block))
        (targetsOfKind .normal (graph.typedRanks block))
  unambiguous : ∀ block ∈ graph.blockList, ∀ target ∈ graph.typedRanks block,
    target.1 < compact.blockCount ∧ target.1 ≠ compact.separator
  tiles : Tiles compact.targetOffsets compact.blockCount compact.targets.size
  whole : (List.range compact.blockCount).flatMap compact.storedTargets = compact.targets.elements
  edges : compact.edgeCount = .ok graph.edgeCount

/-! ### Counting edges -/

theorem length_encodedTargets (graph : Graph) (block : Block) :
    (encodedTargets graph block).length = block.edgesOut.length +
      if needsSeparator (graph.callRanks block) (graph.normalRanks block) then 1 else 0 := by
  have parts : block.edgesOut.length =
      (graph.normalRanks block).length + (graph.callRanks block).length := by
    rw [Graph.normalRanks, Graph.callRanks, List.length_map, List.length_map, Block.splitEdges,
      List.partition_eq_filter_filter]
    exact List.length_eq_length_filter_add _
  rw [encodedTargets, encodeTargets, parts]
  split <;> simp <;> omega

/-- A column with an extra element for every marked row. -/
theorem length_flatMap_eq_add_countP {Item Content Other : Type} {part : Item → List Content}
    {counted : Item → List Other} {marked : Item → Bool} {items : List Item}
    (each : ∀ item ∈ items,
      (part item).length = (counted item).length + if marked item then 1 else 0) :
    (items.flatMap part).length = (items.flatMap counted).length + items.countP marked := by
  induction items with
  | nil => rfl
  | cons item rest inductionHypothesis =>
    rw [List.flatMap_cons, List.length_append, List.flatMap_cons, List.length_append,
      List.countP_cons, each item List.mem_cons_self,
      inductionHypothesis fun other member => each other (List.mem_cons_of_mem _ member)]
    omega

variable {pool after : Pool} {graph next : Graph} {store : TokenStore} {keepAddresses : Bool}

theorem edgeCount_columnsOf :
    (columnsOf pool graph store keepAddresses).edgeCount = .ok graph.edgeCount := by
  have separators : (columnsOf pool graph store keepAddresses).separatorCount =
      graph.blockList.countP fun block =>
        needsSeparator (graph.callRanks block) (graph.normalRanks block) := by
    simp only [separatorCount, columnsOf, ofRows, List.countP_map, List.map_map]
    refine List.countP_congr fun block _ => ?_
    rw [Function.comp_apply, Function.comp_apply, has_multi_plainRow]
  have total : (columnsOf pool graph store keepAddresses).targets.size = graph.edgeCount +
      (columnsOf pool graph store keepAddresses).separatorCount := by
    rw [size_targets_columnsOf, separators]
    exact length_flatMap_eq_add_countP fun block _ => length_encodedTargets graph block
  rw [edgeCount, total, if_pos (Nat.le_add_left _ _), Nat.add_sub_cancel]

/-! ### All edges -/

theorem keepsEdgesOf_columnsOf (closed : graph.danglingEdges = [])
    (sized : (columnsOf pool graph store keepAddresses).WordSized) :
    (columnsOf pool graph store keepAddresses).KeepsEdgesOf graph where
  blocks := by
    rw [blockCount_columnsOf]
    exact AddressMap.length_contents _
  decoded found := blockTargets_columnsOf closed sized found
  encoded found := by
    rw [targetsOfKind_typedRanks_functionCall, targetsOfKind_typedRanks_normal]
    exact storedTargets_columnsOf closed sized found
  flagged {number block} found := by
    rw [targetsOfKind_typedRanks_functionCall, targetsOfKind_typedRanks_normal]
    exact ⟨_, blockFlags_columnsOf found, has_call_plainRow graph keepAddresses block,
      has_multi_plainRow graph keepAddresses block⟩
  unambiguous block listed target member := by
    obtain ⟨edge, edgeMember, same⟩ := Graph.mem_typedRanks member
    have address := Graph.target_mem_addresses closed listed edgeMember
    rw [← same, blockCount_columnsOf, Graph.blockList, AddressMap.length_contents]
    exact ⟨AddressMap.rank_lt_size address, Nat.ne_of_lt (rank_lt_separator sized address)⟩
  tiles := by
    have lengths := tiles_fitting_offsetsOf sized.targets
      (size_targets_columnsOf.trans List.length_flatMap).symm
    rwa [← targetOffsets_columnsOf, List.length_map, ← blockCount_columnsOf] at lengths
  whole := by
    rw [blockCount_columnsOf, elements_targets_columnsOf closed sized]
    exact flatMap_range fun found => storedTargets_columnsOf closed sized found
  edges := edgeCount_columnsOf

theorem KeepsEdgesOf.of_rewrites {rewrite : String → String} {compact : Compact}
    (rewrites : graph.Rewrites rewrite next) (keeps : compact.KeepsEdgesOf next) :
    compact.KeepsEdgesOf graph := by
  have targets (block : Block) :
      next.typedRanks { block with lines := block.lines.map rewrite } = graph.typedRanks block := by
    rw [Graph.typedRanks, rewrites.rank]
    rfl
  have listed {number : Nat} {block : Block} (found : graph.blockList[number]? = some block) :
      next.blockList[number]? = some { block with lines := block.lines.map rewrite } := by
    rw [rewrites.blockList, List.getElem?_map, found]
    rfl
  refine ⟨?_, fun found => ?_, fun found => ?_, fun found => ?_, fun block member => ?_,
    keeps.tiles, keeps.whole, rewrites.edgeCount ▸ keeps.edges⟩
  · have same := congrArg List.length rewrites.addresses
    rw [AddressMap.length_addresses, AddressMap.length_addresses] at same
    exact keeps.blocks.trans same
  · exact targets _ ▸ keeps.decoded (listed found)
  · exact targets _ ▸ keeps.encoded (listed found)
  · exact targets _ ▸ keeps.flagged (listed found)
  · obtain ⟨number, found⟩ := List.mem_iff_getElem?.mp member
    exact targets _ ▸ keeps.unambiguous _ (List.mem_of_getElem? (listed found))

/-! ### The small graph -/

/-- The small graph as a compact one. -/
def loopColumns : Compact := columnsOf [] (Graph.loopGraph (some "base")) .empty true

theorem ofGraph_loopGraph (keepAddresses : Bool) :
    ofGraph [] (Graph.loopGraph (some "base")) (some .base) none ⟨keepAddresses, false⟩ =
      (.ok (columnsOf [] (Graph.loopGraph (some "base")) .empty keepAddresses), []) := by
  have sound := (Graph.reachable_loopGraph (some "base")).sound
  have signed : ∀ block ∈ (Graph.loopGraph (some "base")).blockList, block.Signed := by decide
  exact ofGraph_eq_ok_iff.mpr ⟨_, _, rfl, (ofNormalized_eq_ok_iff sound.toLaid).mpr
    ⟨by decide, fun _ => signed, rfl, rfl⟩⟩

theorem wordSized_loopColumns : loopColumns.WordSized :=
  ⟨by decide, by decide, by decide, by decide⟩

/-! ### All graphs -/

/-- Compact graphs keep the edges of the graphs that they are built from. -/
theorem adjacency_lossless (reachable : graph.Reachable) {normalizer : Option Normalizer}
    {store : Option TokenStore} {options : CompactOptions} {compact : Compact}
    (built : ofGraph pool graph normalizer store options = (.ok compact, after))
    (sized : compact.WordSized) : compact.KeepsEdgesOf graph := by
  obtain ⟨next, middle, prepared, built⟩ := ofGraph_eq_ok_iff.mp built
  obtain ⟨rewrite, rewrites⟩ := rewrites_of_source prepared
  have sound := (reachable_of_source prepared reachable).sound
  obtain ⟨closed, _, rfl, _⟩ := (ofNormalized_eq_ok_iff sound.toLaid).mp built
  exact (keepsEdgesOf_columnsOf closed sized).of_rewrites rewrites

/-- The first block calls the stub and has two normal edges, so a separator stands in its part. -/
theorem loopColumns_keeps_edges :
    loopColumns.targets.elements = [2, 255, 0, 1, 1] ∧
      loopColumns.KeepsEdgesOf (Graph.loopGraph (some "base")) :=
  ⟨by decide, adjacency_lossless (Graph.reachable_loopGraph _) (ofGraph_loopGraph true)
    wordSized_loopColumns⟩

end Compact

end FlowGraph
