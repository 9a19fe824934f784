/-
This file proves what the other columns of a compact graph give back: lines,
addresses, functions and metadata. Lines are looked up in the dictionary as it
is after the build, which must not have more tokens than there are token
numbers; addresses were kept only if all of them have a signed counterpart.
-/

import FlowGraph.Proofs.Names
import FlowGraph.Proofs.Readings

namespace FlowGraph.Compact

variable {pool : Pool} {graph : Graph} {store : TokenStore} {keepAddresses : Bool} {number : Nat}
  {block : Block} {function : Function}

/-! ### Lines -/

/-- The dictionary of a store after the lines of a graph were registered. -/
def tokensAfter (pool : Pool) (graph : Graph) (store : TokenStore) : Dictionary :=
  (store.contents pool).extended (graph.blockList.flatMap Block.lines)

/-- Whether a graph fits into columns: it is laid out and closed, kept addresses have signed
counterparts, every token has a number of its own, and machine words can count everything. -/
structure Fits (pool : Pool) (graph : Graph) (store : TokenStore) (keepAddresses : Bool) :
    Prop where
  laid : graph.Laid
  closed : graph.danglingEdges = []
  signed : keepAddresses = true → ∀ block ∈ graph.blockList, block.Signed
  lives : store.LivesIn pool
  few : (tokensAfter pool graph store).size ≤ 2 ^ 32
  sized : (columnsOf pool graph store keepAddresses).WordSized

theorem Fits.word (fits : Fits pool graph store keepAddresses) :
    graph.blockList.length < 2 ^ 64 := by
  have word := fits.sized.blocks
  rwa [blockCount_columnsOf] at word

theorem contents_tokens_columnsOf (lives : store.LivesIn pool) :
    (columnsOf pool graph store keepAddresses).tokens.contents (poolAfter pool graph store) =
      tokensAfter pool graph store :=
  TokenStore.contents_register lives _

/-- The column of lines is fitted to the number of tokens. -/
theorem lines_columnsOf (lives : store.LivesIn pool) :
    (columnsOf pool graph store keepAddresses).lines =
      .fitting (tokensAfter pool graph store).size
        ((tokensAfter pool graph store).numbersOf (graph.blockList.flatMap Block.lines)) := by
  rw [tokensAfter, ← TokenStore.numbers_register, ← TokenStore.contents_register lives]
  rfl

theorem elements_lines_columnsOf (lives : store.LivesIn pool) :
    (columnsOf pool graph store keepAddresses).lines.elements =
      graph.blockList.flatMap fun block =>
        (tokensAfter pool graph store).numbersOf block.lines := by
  have fits (number : Nat) (member : number ∈
      (tokensAfter pool graph store).numbersOf (graph.blockList.flatMap Block.lines)) :
      number ≤ (Width.fitUnsigned (tokensAfter pool graph store).size).unsignedMax := by
    obtain ⟨withinSize, withinNumbers⟩ := Dictionary.le_of_mem_numbersOf member
    rcases Width.fitUnsigned_cases (tokensAfter pool graph store).size with fits | greatest
    · exact Nat.le_trans withinSize fits
    · rw [greatest]
      exact Nat.le_trans withinNumbers (by decide)
  rw [lines_columnsOf lives, UnsignedArray.fitting, UnsignedArray.elements_ofWidth fits,
    Dictionary.numbersOf, List.map_flatMap]
  rfl

theorem size_lines_columnsOf :
    (columnsOf pool graph store keepAddresses).lines.size =
      (graph.blockList.flatMap Block.lines).length := by
  simp only [columnsOf, ofRows, UnsignedArray.size_fitting, TokenStore.numbers_register,
    Dictionary.numbersOf, List.length_map]

theorem lineOffsets_columnsOf (pool : Pool) (graph : Graph) (store : TokenStore)
    (keepAddresses : Bool) :
    (columnsOf pool graph store keepAddresses).lineOffsets =
      .fitting (columnsOf pool graph store keepAddresses).lines.size
        (offsetsOf 0 (graph.blockList.map fun block => block.lines.length)) := by
  rw [size_lines_columnsOf]
  simp only [columnsOf, ofRows, TokenStore.numbers_register, Dictionary.numbersOf, List.length_map,
    List.map_map]
  rfl

theorem blockTokens_columnsOf (lives : store.LivesIn pool)
    (sized : (columnsOf pool graph store keepAddresses).WordSized)
    (found : graph.blockList[number]? = some block) :
    (columnsOf pool graph store keepAddresses).blockTokens number =
      .ok ((tokensAfter pool graph store).numbersOf block.lines) := by
  have lengths : (graph.blockList.map fun block => block.lines.length) =
      graph.blockList.map fun block =>
        ((tokensAfter pool graph store).numbersOf block.lines).length := by
    simp only [Dictionary.numbersOf, List.length_map]
  have size : (columnsOf pool graph store keepAddresses).lines.size =
      (columnsOf pool graph store keepAddresses).lines.elements.length := rfl
  rw [blockTokens, checkBlock_columnsOf found, lineOffsets_columnsOf, lengths]
  rw [elements_lines_columnsOf lives] at size
  refine congrArg Except.ok ?_
  rw [UnsignedArray.slice, elements_lines_columnsOf lives]
  exact slice_column sized.lines size.symm found

theorem mem_tokensAfter (pool : Pool) (store : TokenStore) (listed : block ∈ graph.blockList)
    {line : String} (member : line ∈ block.lines) :
    line ∈ (tokensAfter pool graph store).tokens :=
  Dictionary.mem_tokens_extended (List.mem_flatMap.mpr ⟨block, listed, member⟩)

/-- The lines of a block can be read as long as no token is taken away. -/
theorem blockLines_of_grown {current : Pool} (lives : store.LivesIn pool)
    (sized : (columnsOf pool graph store keepAddresses).WordSized)
    (grown : (tokensAfter pool graph store).tokens <+:
      ((columnsOf pool graph store keepAddresses).tokens.contents current).tokens)
    (found : graph.blockList[number]? = some block) :
    (columnsOf pool graph store keepAddresses).blockLines current number =
      .ok (block.lines.map (tokensAfter pool graph store).readBack) := by
  rw [blockLines, blockTokens_columnsOf lives sized found]
  exact Dictionary.mapM_token?_numbersOf grown
    (fun line member => mem_tokensAfter pool store (List.mem_of_getElem? found) member)
    CompactError.unknownToken

/-- The lines of a block come back as they were, wherever the tokens are known. -/
theorem blockLines_columnsOf {current : Pool} (lives : store.LivesIn pool)
    (few : (tokensAfter pool graph store).size ≤ 2 ^ 32)
    (sized : (columnsOf pool graph store keepAddresses).WordSized)
    (known : (columnsOf pool graph store keepAddresses).tokens.contents current =
      tokensAfter pool graph store)
    (found : graph.blockList[number]? = some block) :
    (columnsOf pool graph store keepAddresses).blockLines current number = .ok block.lines := by
  rw [blockLines_of_grown lives sized (known ▸ List.prefix_refl _) found,
    Dictionary.map_readBack few fun line member =>
      mem_tokensAfter pool store (List.mem_of_getElem? found) member]

/-! ### Functions -/

@[simp]
theorem functionCount_columnsOf :
    (columnsOf pool graph store keepAddresses).functionCount = graph.functionList.length :=
  size_numberFunctions _

theorem checkFunction_columnsOf (found : graph.functionList[number]? = some function) :
    (columnsOf pool graph store keepAddresses).checkFunction number = .ok () := by
  rw [checkFunction, functionCount_columnsOf, if_pos (List.getElem?_eq_some_iff.mp found).1]

/-- The column of functions is fitted to the number of functions. -/
theorem functionOfBlock_columnsOf (pool : Pool) (graph : Graph) (store : TokenStore)
    (keepAddresses : Bool) :
    (columnsOf pool graph store keepAddresses).functionOfBlock =
      .fitting graph.functionCount (graph.blockList.map graph.parentRank) := by
  simp only [columnsOf, ofRows, List.map_map]
  rfl

theorem elements_functionOfBlock_columnsOf (laid : graph.Laid)
    (sized : (columnsOf pool graph store keepAddresses).WordSized) :
    (columnsOf pool graph store keepAddresses).functionOfBlock.elements =
      graph.blockList.map graph.parentRank := by
  have word := sized.functions
  rw [functionCount_columnsOf, Graph.functionList, AddressMap.length_contents] at word
  rw [functionOfBlock_columnsOf]
  refine UnsignedArray.elements_fitting word fun rank member => ?_
  obtain ⟨block, listed, rfl⟩ := List.mem_map.mp member
  have inside := laid.parentRank_lt listed
  rw [Graph.functionList, AddressMap.length_contents] at inside
  exact Nat.le_of_lt inside

theorem blockFunction_columnsOf (laid : graph.Laid)
    (sized : (columnsOf pool graph store keepAddresses).WordSized)
    (found : graph.blockList[number]? = some block) :
    (columnsOf pool graph store keepAddresses).blockFunction number =
      .ok (graph.parentRank block) := by
  rw [blockFunction, checkBlock_columnsOf found, UnsignedArray.get?,
    elements_functionOfBlock_columnsOf laid sized, List.getElem?_map, found]
  rfl

/-- The numbers of the rows with a value, in ascending order. -/
theorem numbers_of_zipIdx (values : List Nat) (value : Nat) :
    let numbers := (values.zipIdx.filter fun entry => entry.1 == value).map fun entry => entry.2
    numbers.Pairwise (· < ·) ∧ ∀ number, number ∈ numbers ↔ values[number]? = some value := by
  constructor
  · have ascending : values.zipIdx.Pairwise fun first second => first.2 < second.2 := by
      have places : (values.zipIdx.map Prod.snd).Pairwise (· < ·) := by
        rw [List.zipIdx_map_snd]
        exact List.pairwise_lt_range'
      exact List.pairwise_map.mp places
    exact List.pairwise_map.mpr (ascending.filter _)
  · intro number
    simp only [List.mem_map, List.mem_filter, beq_iff_eq]
    constructor
    · rintro ⟨entry, ⟨member, same⟩, rfl⟩
      exact same ▸ List.mem_zipIdx_iff_getElem?.mp member
    · intro found
      exact ⟨(value, number), ⟨List.mem_zipIdx_iff_getElem?.mpr found, rfl⟩, rfl⟩

/-- The numbers of a function's blocks are their ranks, in ascending order. -/
theorem functionBlocks_columnsOf (laid : graph.Laid)
    (sized : (columnsOf pool graph store keepAddresses).WordSized)
    (found : graph.functionList[number]? = some function) :
    ∃ numbers, (columnsOf pool graph store keepAddresses).functionBlocks number = .ok numbers ∧
      numbers.Pairwise (· < ·) ∧
      ∀ rank, rank ∈ numbers ↔ rank ∈ function.blocks.map graph.blocks.rank := by
  obtain ⟨home, functionFound, homeRank⟩ := AddressMap.getElem?_contents_eq_some_iff.mp found
  obtain ⟨ascending, members⟩ := numbers_of_zipIdx (graph.blockList.map graph.parentRank) number
  refine ⟨_, ?_, ascending, fun rank => (members rank).trans ?_⟩
  · rw [functionBlocks, checkFunction_columnsOf found,
      elements_functionOfBlock_columnsOf laid sized]
    rfl
  · rw [List.getElem?_map, Option.map_eq_some_iff, List.mem_map]
    constructor
    · rintro ⟨block, blockFound, parent⟩
      obtain ⟨address, there, rfl⟩ := AddressMap.getElem?_contents_eq_some_iff.mp blockFound
      rw [← homeRank, laid.parentRank_eq_iff (AddressMap.mem_contents_of_getElem? there)
        functionFound] at parent
      exact ⟨address, (laid.mem_blocks_iff functionFound).mpr ⟨block, there, parent⟩, rfl⟩
    · rintro ⟨address, member, rfl⟩
      obtain ⟨block, there, parent⟩ := laid.member functionFound address member
      refine ⟨block, AddressMap.getElem?_contents_eq_some_iff.mpr ⟨address, there, rfl⟩, ?_⟩
      rw [Graph.parentRank, parent, Option.getD_some, homeRank]

/-! ### Addresses -/

theorem blockAddress_forgotten (found : graph.blockList[number]? = some block) :
    (columnsOf pool graph store false).blockAddress number = .ok none := by
  rw [blockAddress, checkBlock_columnsOf found]
  rfl

theorem blockLineAddresses_forgotten (found : graph.blockList[number]? = some block) :
    (columnsOf pool graph store false).blockLineAddresses number = .ok none := by
  rw [blockLineAddresses, checkBlock_columnsOf found]
  rfl

theorem address_bounds (signed : ∀ block ∈ graph.blockList, block.Signed) :
    ∀ value ∈ (graph.blockList.map (graph.plainRow true)).map Row.address,
      -1 ≤ value ∧ value < 2 ^ 63 := by
  intro value member
  rw [List.map_map] at member
  obtain ⟨block, listed, rfl⟩ := List.mem_map.mp member
  have := (signed block listed).own
  simp only [Function.comp_apply, Graph.plainRow, if_true]
  omega

/-- The column of block addresses, if addresses are kept. -/
theorem blockAddresses_columnsOf (pool : Pool) (store : TokenStore)
    (signed : ∀ block ∈ graph.blockList, block.Signed) :
    ∃ column, (columnsOf pool graph store true).blockAddresses = some column ∧
      column.elements = graph.blockList.map fun block => (block.address.toNat : Int) := by
  refine ⟨_, rfl, ?_⟩
  rw [SignedArray.elements_fitting (address_bounds signed), List.map_map]
  rfl

theorem blockAddress_columnsOf (signed : ∀ block ∈ graph.blockList, block.Signed)
    (found : graph.blockList[number]? = some block) :
    (columnsOf pool graph store true).blockAddress number =
      .ok (some (block.address.toNat : Int)) := by
  obtain ⟨column, kept, elements⟩ := blockAddresses_columnsOf pool store signed
  rw [blockAddress, checkBlock_columnsOf found, kept, Option.bind_some, SignedArray.get?, elements,
    List.getElem?_map, found]
  rfl

theorem length_signedLines (laid : graph.Laid) (listed : block ∈ graph.blockList) :
    block.signedLines.length = block.lines.length := by
  unfold Block.signedLines
  split
  · rename_i known
    rw [List.length_map]
    exact laid.lineAddresses (laid.mem_blockList.mp listed)
      ((Block.hasLineAddresses_iff block).mp known)
  · exact List.length_replicate

theorem mem_signedLines (signed : block.Signed) {value : Int} (member : value ∈ block.signedLines) :
    -1 ≤ value ∧ value < 2 ^ 63 := by
  unfold Block.signedLines at member
  split at member
  · obtain ⟨address, addressMember, rfl⟩ := List.mem_map.mp member
    have := signed.lines address addressMember
    omega
  · have := List.eq_of_mem_replicate member
    omega

theorem lineAddress_bounds (signed : ∀ block ∈ graph.blockList, block.Signed) :
    ∀ value ∈ (graph.blockList.map (graph.plainRow true)).flatMap Row.lineAddresses,
      -1 ≤ value ∧ value < 2 ^ 63 := by
  intro value member
  rw [List.flatMap_map] at member
  obtain ⟨block, listed, valueMember⟩ := List.mem_flatMap.mp member
  exact mem_signedLines (signed block listed) valueMember

/-- The columns of line addresses, if addresses are kept. -/
theorem lineAddresses_columnsOf (pool : Pool) (store : TokenStore)
    (signed : ∀ block ∈ graph.blockList, block.Signed) :
    ∃ column, (columnsOf pool graph store true).lineAddresses = some column ∧
      column.elements = graph.blockList.flatMap Block.signedLines ∧
      (columnsOf pool graph store true).lineAddressOffsets =
        some (.fitting (columnsOf pool graph store true).lines.size
          (offsetsOf 0 (graph.blockList.map fun block => block.signedLines.length))) := by
  refine ⟨_, rfl, ?_, ?_⟩
  · rw [SignedArray.elements_fitting (lineAddress_bounds signed), List.flatMap_map]
    rfl
  · rw [size_lines_columnsOf]
    simp only [columnsOf, ofRows, TokenStore.numbers_register, Dictionary.numbersOf,
      List.length_map, List.map_map]
    rfl

theorem length_flatMap_signedLines (laid : graph.Laid) :
    (graph.blockList.flatMap Block.signedLines).length =
      (graph.blockList.flatMap Block.lines).length := by
  rw [List.length_flatMap, List.length_flatMap]
  congr 1
  exact List.map_congr_left fun block listed => length_signedLines laid listed

theorem blockLineAddresses_columnsOf (laid : graph.Laid)
    (signed : ∀ block ∈ graph.blockList, block.Signed)
    (sized : (columnsOf pool graph store true).WordSized)
    (found : graph.blockList[number]? = some block) :
    (columnsOf pool graph store true).blockLineAddresses number = .ok (some block.signedLines) := by
  obtain ⟨column, kept, elements, offsets⟩ := lineAddresses_columnsOf pool store signed
  have sum : (graph.blockList.flatMap Block.signedLines).length =
      (columnsOf pool graph store true).lines.size :=
    (length_flatMap_signedLines laid).trans size_lines_columnsOf.symm
  rw [blockLineAddresses, checkBlock_columnsOf found, kept, offsets]
  refine congrArg (fun part => Except.ok (some part)) ?_
  rw [SignedArray.slice, elements]
  exact slice_column sized.lines sum found

/-! ### Metadata -/

theorem blockMetadata_columnsOf : (columnsOf pool graph store keepAddresses).blockMetadata =
    .encode (graph.blockList.map Block.metadata) := by
  simp only [columnsOf, ofRows, List.map_map]
  rfl

theorem functionMetadata_columnsOf : (columnsOf pool graph store keepAddresses).functionMetadata =
    .encode (graph.functionList.map Function.metadata) := rfl

/-- There is metadata for all blocks and no others. -/
theorem tableCount_blockMetadata_columnsOf :
    (columnsOf pool graph store keepAddresses).blockMetadata.tableCount =
      (columnsOf pool graph store keepAddresses).blockCount := by
  rw [blockMetadata_columnsOf, RunLength.tableCount_encode, List.length_map, blockCount_columnsOf]

/-- There is metadata for all functions and no others. -/
theorem tableCount_functionMetadata_columnsOf :
    (columnsOf pool graph store keepAddresses).functionMetadata.tableCount =
      (columnsOf pool graph store keepAddresses).functionCount := by
  rw [functionMetadata_columnsOf, RunLength.tableCount_encode, List.length_map,
    functionCount_columnsOf]

theorem metadataOfBlock_columnsOf (sized : (columnsOf pool graph store keepAddresses).WordSized)
    (found : graph.blockList[number]? = some block) :
    (columnsOf pool graph store keepAddresses).metadataOfBlock number = .ok block.metadata := by
  have word := sized.blocks
  rw [blockCount_columnsOf] at word
  rw [metadataOfBlock, checkBlock_columnsOf found, blockMetadata_columnsOf,
    RunLength.tableAt_encode (by rwa [List.length_map]), List.getElem?_map, found]
  rfl

theorem metadataOfFunction_columnsOf (sized : (columnsOf pool graph store keepAddresses).WordSized)
    (found : graph.functionList[number]? = some function) :
    (columnsOf pool graph store keepAddresses).metadataOfFunction number =
      .ok function.metadata := by
  have word := sized.functions
  rw [functionCount_columnsOf] at word
  rw [metadataOfFunction, checkFunction_columnsOf found, functionMetadata_columnsOf,
    RunLength.tableAt_encode (by rwa [List.length_map]), List.getElem?_map, found]
  rfl

end FlowGraph.Compact
