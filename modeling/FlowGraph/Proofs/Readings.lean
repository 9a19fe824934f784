/-
This file proves what a compact graph that was built from a graph tells about
it. For each block, by its rank, every column gives back what the block
contributed, as long as a machine word can count what the columns hold: no value
was cut off by the width of its column, and no offset points elsewhere.
-/

import FlowGraph.Compact.Expand
import FlowGraph.Proofs.Runs
import FlowGraph.Proofs.Targets

namespace FlowGraph.Compact

/-- Whether a machine word can count the functions, the blocks and the elements of the long
columns, as it can for everything that fits in memory. -/
structure WordSized (compact : Compact) : Prop where
  functions : compact.functionCount < 2 ^ 64
  blocks : compact.blockCount < 2 ^ 64
  lines : compact.lines.size < 2 ^ 64
  targets : compact.targets.size < 2 ^ 64

/-- Whether memory can also hold all functions and a table for every block in lists, as it has to
before a compact graph is expanded. It can wherever it could hold a graph with so many functions and
blocks. -/
structure MemorySized (compact : Compact) : Prop extends WordSized compact where
  functionDrafts : compact.functionCount ≤ greatestDraftCount
  blockTables : compact.blockCount ≤ RunLength.greatestCount

variable {pool : Pool} {graph : Graph} {store : TokenStore} {keepAddresses : Bool} {number : Nat}
  {block : Block}

/-! ### Numbers of blocks -/

@[simp]
theorem blockCount_columnsOf :
    (columnsOf pool graph store keepAddresses).blockCount = graph.blockList.length := by
  rw [blockCount]
  simp only [columnsOf, ofRows, UnsignedArray.size_fitting, List.length_map]

theorem checkBlock_columnsOf (found : graph.blockList[number]? = some block) :
    (columnsOf pool graph store keepAddresses).checkBlock number = .ok () := by
  rw [checkBlock, blockCount_columnsOf, if_pos (List.getElem?_eq_some_iff.mp found).1]

/-! ### Flags -/

theorem blockFlags_columnsOf (found : graph.blockList[number]? = some block) :
    (columnsOf pool graph store keepAddresses).blockFlags number =
      .ok (graph.plainRow keepAddresses block).flags := by
  have stored : (columnsOf pool graph store keepAddresses).flags[number]? =
      some (graph.plainRow keepAddresses block).flags := by
    simp only [columnsOf, ofRows, List.getElem?_map, found, Option.map_some]
  rw [blockFlags, checkBlock_columnsOf found, stored]
  rfl

theorem has_call_plainRow (graph : Graph) (keepAddresses : Bool) (block : Block) :
    (graph.plainRow keepAddresses block).flags.has .call = !(graph.callRanks block).isEmpty := by
  rw [Graph.plainRow, BlockFlags.ofBlock, BlockFlags.has_ofFacts, Graph.callRanks,
    List.isEmpty_map]
  exact Graph.hasCall_eq_not_isEmpty block

theorem has_multi_plainRow (graph : Graph) (keepAddresses : Bool) (block : Block) :
    (graph.plainRow keepAddresses block).flags.has .multi =
      needsSeparator (graph.callRanks block) (graph.normalRanks block) := by
  rw [Graph.plainRow, BlockFlags.ofBlock, BlockFlags.has_ofFacts]

/-! ### Targets -/

/-- The part of the column of targets that belongs to a block. -/
def storedTargets (compact : Compact) (number : Nat) : List Nat :=
  let bounds := range compact.targetOffsets number
  compact.targets.slice bounds.1 bounds.2

/-- The targets of a block of a graph as they are to be stored. -/
def encodedTargets (graph : Graph) (block : Block) : List (Option Nat) :=
  encodeTargets (graph.callRanks block) (graph.normalRanks block)

theorem size_targets_columnsOf :
    (columnsOf pool graph store keepAddresses).targets.size =
      (graph.blockList.flatMap (encodedTargets graph)).length := by
  simp only [columnsOf, ofRows, UnsignedArray.size_ofWidth, List.length_map, List.flatMap_map]
  rfl

theorem separator_columnsOf (pool : Pool) (graph : Graph) (store : TokenStore)
    (keepAddresses : Bool) :
    (columnsOf pool graph store keepAddresses).separator =
      (Width.fitUnsigned (graph.blockList.length + 1)).unsignedMax := by
  simp only [separator, columnsOf, ofRows, List.length_map]
  rfl

/-- No rank is the separator. -/
theorem rank_lt_separator (sized : (columnsOf pool graph store keepAddresses).WordSized)
    {address : Address} (member : address ∈ graph.blocks.addresses) :
    graph.blocks.rank address < (columnsOf pool graph store keepAddresses).separator := by
  have word := sized.blocks
  rw [blockCount_columnsOf] at word
  rw [separator_columnsOf]
  refine Width.lt_unsignedMax_fitUnsigned ?_ word
  rw [Graph.blockList, AddressMap.length_contents]
  exact AddressMap.rank_lt_size member

theorem ranks_lt_separator (closed : graph.danglingEdges = [])
    (sized : (columnsOf pool graph store keepAddresses).WordSized)
    (listed : block ∈ graph.blockList) :
    ∀ target, target ∈ graph.callRanks block ∨ target ∈ graph.normalRanks block →
      target < (columnsOf pool graph store keepAddresses).separator := by
  have leaving {edge : Edge} (member : edge ∈ block.edgesOut) :=
    rank_lt_separator sized (Graph.target_mem_addresses closed listed member)
  rintro target (call | normal)
  · obtain ⟨edge, member, rfl⟩ := List.mem_map.mp call
    exact leaving (Graph.mem_splitEdges.mpr (Or.inr member))
  · obtain ⟨edge, member, rfl⟩ := List.mem_map.mp normal
    exact leaving (Graph.mem_splitEdges.mpr (Or.inl member))

/-- The column of targets holds the ranks themselves, and separators. -/
theorem elements_targets_columnsOf (closed : graph.danglingEdges = [])
    (sized : (columnsOf pool graph store keepAddresses).WordSized) :
    (columnsOf pool graph store keepAddresses).targets.elements =
      graph.blockList.flatMap fun block => (encodedTargets graph block).map fun target =>
        target.getD (columnsOf pool graph store keepAddresses).separator := by
  rw [← List.map_flatMap]
  have values : (columnsOf pool graph store keepAddresses).targets =
      .ofWidth (Width.fitUnsigned (graph.blockList.length + 1))
        ((graph.blockList.flatMap (encodedTargets graph)).map fun target =>
          target.getD (columnsOf pool graph store keepAddresses).separator) := by
    rw [separator_columnsOf]
    simp only [columnsOf, ofRows, List.length_map, List.flatMap_map]
    rfl
  rw [values]
  refine UnsignedArray.elements_ofWidth fun value member => ?_
  rw [← separator_columnsOf pool graph store keepAddresses]
  obtain ⟨target, targetMember, rfl⟩ := List.mem_map.mp member
  obtain ⟨block, listed, targetMember⟩ := List.mem_flatMap.mp targetMember
  cases target with
  | none => exact Nat.le_refl _
  | some target =>
    rw [Option.getD_some]
    simp only [encodedTargets, encodeTargets, List.mem_append, List.mem_map, Option.some.injEq,
      exists_eq_right] at targetMember
    rcases targetMember with (call | gap) | normal
    · exact Nat.le_of_lt (ranks_lt_separator closed sized listed target (Or.inl call))
    · split at gap <;> simp at gap
    · exact Nat.le_of_lt (ranks_lt_separator closed sized listed target (Or.inr normal))

theorem targetOffsets_columnsOf (pool : Pool) (graph : Graph) (store : TokenStore)
    (keepAddresses : Bool) :
    (columnsOf pool graph store keepAddresses).targetOffsets =
      .fitting (columnsOf pool graph store keepAddresses).targets.size
        (offsetsOf 0 (graph.blockList.map fun block => (encodedTargets graph block).length)) := by
  rw [size_targets_columnsOf]
  simp only [columnsOf, ofRows, List.flatMap_map, List.map_map]
  rfl

theorem storedTargets_columnsOf (closed : graph.danglingEdges = [])
    (sized : (columnsOf pool graph store keepAddresses).WordSized)
    (found : graph.blockList[number]? = some block) :
    (columnsOf pool graph store keepAddresses).storedTargets number =
      (encodedTargets graph block).map fun target =>
        target.getD (columnsOf pool graph store keepAddresses).separator := by
  have lengths : (graph.blockList.map fun block => (encodedTargets graph block).length) =
      graph.blockList.map fun block => ((encodedTargets graph block).map fun target =>
        target.getD (columnsOf pool graph store keepAddresses).separator).length := by
    simp only [List.length_map]
  have size : (columnsOf pool graph store keepAddresses).targets.size =
      (columnsOf pool graph store keepAddresses).targets.elements.length := rfl
  rw [storedTargets, targetOffsets_columnsOf, lengths, UnsignedArray.slice]
  rw [elements_targets_columnsOf closed sized] at size ⊢
  exact slice_column sized.targets size.symm found

/-- The targets of a block come back with their kinds, calls first. -/
theorem blockTargets_columnsOf (closed : graph.danglingEdges = [])
    (sized : (columnsOf pool graph store keepAddresses).WordSized)
    (found : graph.blockList[number]? = some block) :
    (columnsOf pool graph store keepAddresses).blockTargets number =
      .ok (graph.typedRanks block) := by
  have listed := List.mem_of_getElem? found
  have unfolded : (columnsOf pool graph store keepAddresses).blockTargets number =
      (columnsOf pool graph store keepAddresses).blockFlags number >>= fun flags =>
        .ok (typedTargets flags (columnsOf pool graph store keepAddresses).separator
          ((columnsOf pool graph store keepAddresses).storedTargets number)) := rfl
  have decoded := typedTargets_encodeTargets (has_call_plainRow graph keepAddresses block)
    (has_multi_plainRow graph keepAddresses block)
    fun target member =>
      Nat.ne_of_lt (ranks_lt_separator closed sized listed target (Or.inl member))
  rw [unfolded, blockFlags_columnsOf found, storedTargets_columnsOf closed sized found,
    Graph.typedRanks_eq]
  exact congrArg Except.ok decoded

end FlowGraph.Compact
