/-
This file proves that the columns of a compact graph are faithful: whatever is
asked about a block or a function, the answer is that of the graph which was
compacted. No value was cut off on the way into its column, and the offsets are
the sums of the lengths before them.
-/

import FlowGraph.Proofs.Contents
import FlowGraph.Proofs.Lossless

namespace FlowGraph.Compact

/-! ### Facts about blocks -/

theorem has_entry_eq_isEntry (graph : Graph) (keepAddresses : Bool) (block : Block) :
    (graph.plainRow keepAddresses block).flags.has .entry = block.isEntry := by
  rw [Graph.plainRow, BlockFlags.ofBlock, BlockFlags.has_ofFacts]

theorem has_external_eq_inExternal (graph : Graph) (keepAddresses : Bool) (block : Block) :
    (graph.plainRow keepAddresses block).flags.has .external =
      BlockFlags.inExternal graph block := by
  rw [Graph.plainRow, BlockFlags.ofBlock, BlockFlags.has_ofFacts]

theorem has_entry_plainRow (graph : Graph) (keepAddresses : Bool) (block : Block) :
    (graph.plainRow keepAddresses block).flags.has .entry = true ↔
      block.parent = some block.address := by
  rw [has_entry_eq_isEntry]
  exact beq_iff_eq

theorem has_external_plainRow (graph : Graph) (keepAddresses : Bool) (block : Block) :
    (graph.plainRow keepAddresses block).flags.has .external = true ↔
      ∃ home function, block.parent = some home ∧ graph.functions[home]? = some function ∧
        function.isExternal = true := by
  rw [has_external_eq_inExternal, BlockFlags.inExternal]
  cases parent : block.parent with
  | none => simp
  | some home =>
    cases found : graph.functions[home]? with
    | none => simp [found]
    | some function => simp [found]

theorem has_jump_plainRow (graph : Graph) (keepAddresses : Bool) (block : Block) :
    (graph.plainRow keepAddresses block).flags.has .jump = true ↔
      ∃ edge ∈ block.edgesOut, edge.kind = .normal ∧ ∃ target,
        graph.blocks[edge.target]? = some target ∧ target.parent ≠ block.parent := by
  rw [Graph.plainRow, BlockFlags.ofBlock, BlockFlags.has_ofFacts]
  simp only [Graph.jumpsAway, List.any_eq_true, Bool.and_eq_true, beq_iff_eq]
  refine exists_congr fun edge => and_congr_right fun _ => and_congr_right fun _ => ?_
  cases graph.blocks[edge.target]? with
  | none => simp
  | some target => simp

/-! ### Faithful columns -/

/-- Whether the columns of a compact graph hold what the blocks of a graph contribute, no value
being cut off, and the sums of lengths as offsets. -/
structure HoldsExactly (compact : Compact) (pool : Pool) (graph : Graph) (keepAddresses : Bool) :
    Prop where
  lines : compact.lines.elements = (graph.blockList.flatMap Block.lines).map fun line =>
    (compact.tokens.tokens pool).idxOf line
  lineOffsets : compact.lineOffsets.elements =
    offsetsOf 0 (graph.blockList.map fun block => block.lines.length)
  functions : compact.functionOfBlock.elements = graph.blockList.map graph.parentRank
  targets : compact.targets.elements =
    graph.blockList.flatMap fun block => (encodedTargets graph block).map fun target =>
      target.getD compact.separator
  targetOffsets : compact.targetOffsets.elements =
    offsetsOf 0 (graph.blockList.map fun block => (encodedTargets graph block).length)
  blockAddresses : compact.blockAddresses.map SignedArray.elements =
    if keepAddresses then some (graph.blockList.map fun block => (block.address.toNat : Int))
    else none
  lineAddresses : compact.lineAddresses.map SignedArray.elements =
    if keepAddresses then some (graph.blockList.flatMap Block.signedLines) else none
  lineAddressOffsets : compact.lineAddressOffsets.map UnsignedArray.elements =
    if keepAddresses then
      some (offsetsOf 0 (graph.blockList.map fun block => block.signedLines.length))
    else none

/-- Whether the flags of a block say what is true of it. -/
structure FlagsFit (graph : Graph) (block : Block) (flags : BlockFlags) : Prop where
  entry : flags.has .entry = true ↔ block.parent = some block.address
  external : flags.has .external = true ↔ ∃ home function, block.parent = some home ∧
    graph.functions[home]? = some function ∧ function.isExternal = true
  jump : flags.has .jump = true ↔ ∃ edge ∈ block.edgesOut, edge.kind = .normal ∧ ∃ target,
    graph.blocks[edge.target]? = some target ∧ target.parent ≠ block.parent

/-- Whether a compact graph gives the answers of a graph about its blocks. -/
structure FaithfulBlock (compact : Compact) (pool : Pool) (graph : Graph) (keepAddresses : Bool)
    (number : Nat) (block : Block) : Prop where
  lines : compact.blockLines pool number = .ok block.lines
  address : compact.blockAddress number =
    .ok (if keepAddresses then some (block.address.toNat : Int) else none)
  lineAddresses : compact.blockLineAddresses number =
    .ok (if keepAddresses then some block.signedLines else none)
  function : ∃ home, block.parent = some home ∧
    compact.blockFunction number = .ok (graph.functions.rank home)
  flags : ∃ flags, compact.blockFlags number = .ok flags ∧ FlagsFit graph block flags
  metadata : compact.metadataOfBlock number = .ok block.metadata

/-- Whether a compact graph gives the answers of a graph about its functions. -/
structure FaithfulFunction (compact : Compact) (graph : Graph) (number : Nat)
    (function : Function) : Prop where
  metadata : compact.metadataOfFunction number = .ok function.metadata
  blocks : ∃ numbers, compact.functionBlocks number = .ok numbers ∧ numbers.Pairwise (· < ·) ∧
    ∀ rank, rank ∈ numbers ↔ rank ∈ function.blocks.map graph.blocks.rank

/-- Whether a compact graph is faithful to a graph. -/
structure FaithfulTo (compact : Compact) (pool : Pool) (graph : Graph) (keepAddresses : Bool) :
    Prop where
  columns : compact.HoldsExactly pool graph keepAddresses
  blocks : ∀ {number : Nat} {block : Block}, graph.blockList[number]? = some block →
    compact.FaithfulBlock pool graph keepAddresses number block
  functions : ∀ {number : Nat} {function : Function},
    graph.functionList[number]? = some function → compact.FaithfulFunction graph number function

variable {pool middle after : Pool} {graph next : Graph} {store : TokenStore}
  {keepAddresses : Bool}

theorem holdsExactly_columnsOf (fits : Fits pool graph store keepAddresses) :
    (columnsOf pool graph store keepAddresses).HoldsExactly (poolAfter pool graph store) graph
      keepAddresses where
  lines := by
    rw [elements_lines_columnsOf fits.lives, TokenStore.tokens,
      contents_tokens_columnsOf fits.lives, List.map_flatMap]
    exact List.flatMap_congr fun block listed =>
      Dictionary.numbersOf_eq fits.few fun line member => mem_tokensAfter pool store listed member
  lineOffsets := by
    rw [lineOffsets_columnsOf]
    refine elements_fitting_offsetsOf fits.sized.lines ?_
    rw [size_lines_columnsOf, List.length_flatMap]
  functions := elements_functionOfBlock_columnsOf fits.laid fits.sized
  targets := elements_targets_columnsOf fits.closed fits.sized
  targetOffsets := by
    rw [targetOffsets_columnsOf]
    refine elements_fitting_offsetsOf fits.sized.targets ?_
    rw [size_targets_columnsOf, List.length_flatMap]
  blockAddresses := by
    cases keepAddresses with
    | false => rfl
    | true =>
      obtain ⟨column, kept, elements⟩ := blockAddresses_columnsOf pool store (fits.signed rfl)
      rw [kept, Option.map_some, elements, if_pos rfl]
  lineAddresses := by
    cases keepAddresses with
    | false => rfl
    | true =>
      obtain ⟨column, kept, elements, _⟩ := lineAddresses_columnsOf pool store (fits.signed rfl)
      rw [kept, Option.map_some, elements, if_pos rfl]
  lineAddressOffsets := by
    cases keepAddresses with
    | false => rfl
    | true =>
      obtain ⟨_, _, _, offsets⟩ := lineAddresses_columnsOf pool store (fits.signed rfl)
      rw [offsets, Option.map_some, if_pos rfl]
      refine congrArg some (elements_fitting_offsetsOf fits.sized.lines ?_)
      rw [← List.length_flatMap, length_flatMap_signedLines fits.laid, size_lines_columnsOf]

theorem faithfulTo_columnsOf (fits : Fits pool graph store keepAddresses) :
    (columnsOf pool graph store keepAddresses).FaithfulTo (poolAfter pool graph store) graph
      keepAddresses where
  columns := holdsExactly_columnsOf fits
  blocks {number block} found := by
    obtain ⟨function, _, parent⟩ := fits.laid.exists_parent (List.mem_of_getElem? found)
    have lines := blockLines_columnsOf fits.lives fits.few fits.sized
      (contents_tokens_columnsOf fits.lives) found
    refine ⟨lines, ?_, ?_, ⟨function.address, parent, ?_⟩, ⟨_, blockFlags_columnsOf found,
        has_entry_plainRow graph keepAddresses block,
        has_external_plainRow graph keepAddresses block,
        has_jump_plainRow graph keepAddresses block⟩,
      metadataOfBlock_columnsOf fits.sized found⟩
    · cases keepAddresses with
      | false => exact blockAddress_forgotten found
      | true => exact blockAddress_columnsOf (fits.signed rfl) found
    · cases keepAddresses with
      | false => exact blockLineAddresses_forgotten found
      | true => exact blockLineAddresses_columnsOf fits.laid (fits.signed rfl) fits.sized found
    · rw [blockFunction_columnsOf fits.laid fits.sized found, Graph.parentRank, parent,
        Option.getD_some]
  functions found :=
    ⟨metadataOfFunction_columnsOf fits.sized found,
      functionBlocks_columnsOf fits.laid fits.sized found⟩

/-! ### All graphs -/

/-- Compact graphs are faithful to the graphs that are compacted. -/
theorem columns_faithful (reachable : graph.Reachable) {normalizer : Option Normalizer}
    {store : Option TokenStore} {options : CompactOptions} {compact : Compact}
    (built : ofGraph pool graph normalizer store options = (.ok compact, after))
    (lives : (store.getD .empty).LivesIn pool)
    (few : (compact.tokens.contents after).size ≤ 2 ^ 32) (sized : compact.WordSized) :
    ∃ next middle, source pool graph normalizer options.force = .ok (next, middle) ∧
      compact.FaithfulTo after next options.keepAddresses := by
  obtain ⟨next, middle, prepared, built⟩ := ofGraph_eq_ok_iff.mp built
  have sound := (reachable_of_source prepared reachable).sound
  have livesNow := lives.of_length (length_pool_of_source prepared)
  obtain ⟨closed, signed, rfl, rfl⟩ := (ofNormalized_eq_ok_iff sound.toLaid).mp built
  have fewNow := few
  rw [contents_tokens_columnsOf livesNow] at fewNow
  exact ⟨next, middle, prepared,
    faithfulTo_columnsOf ⟨sound.toLaid, closed, signed, livesNow, fewNow, sized⟩⟩

/-- The columns of the small graph. -/
theorem loopColumns_faithful :
    loopColumns.lines.elements = [0, 1, 2, 1] ∧
      ∃ next middle, source [] (Graph.loopGraph (some "base")) (some .base) false =
          .ok (next, middle) ∧ loopColumns.FaithfulTo [] next true :=
  ⟨by decide, columns_faithful (Graph.reachable_loopGraph _) (ofGraph_loopGraph true) trivial
    (by decide) wordSized_loopColumns⟩

end FlowGraph.Compact
