/-
This file proves that a compact graph comes back from its text. Whatever a
compact graph was made of, its columns fit their widths and its numbers are
machine words, because it was built, or read, or changed in its tokens and
metadata only. A compact graph of this kind is read back field by field, with a
dictionary of its own in the place of a shared one, so it gives the same answers
and the same text.
-/

import FlowGraph.Proofs.ColumnTexts
import FlowGraph.Proofs.Recompacted

namespace FlowGraph

theorem mem_of_getElem?_ofList {Content : Type} {entries : List (String × Content)} {name : String}
    {content : Content} (found : (Std.ExtTreeMap.ofList entries)[name]? = some content) :
    ∃ entry ∈ entries, entry.2 = content := by
  rw [Std.ExtTreeMap.ofList_eq_insertMany_empty, Std.ExtTreeMap.getElem?_insertMany_list,
    Std.ExtTreeMap.getElem?_empty, Option.or_none, List.findSomeRev?_eq_findSome?_reverse] at found
  obtain ⟨⟨_, value⟩, member, matched⟩ := List.exists_of_findSome?_eq_some found
  dsimp only at matched
  split at matched
  · exact ⟨_, List.mem_reverse.mp member, Option.some.inj matched⟩
  · cases matched

/-- A dictionary with the contents of a store is as good as the store. -/
theorem TokenStore.same_own_contents (store : TokenStore) (pool : Pool) :
    (own (store.contents pool)).same pool store = true := by
  cases store with
  | own dictionary => exact beq_self_eq_true dictionary
  | shared handle => exact beq_self_eq_true _

namespace Compact

variable {compact : Compact} {pool : Pool}

/-! ### Columns that a file can hold -/

/-- Whether the columns fit their widths, and every number is a machine word if the numbers of
functions and blocks are. -/
structure Storable (compact : Compact) : Prop where
  lines : compact.lines.Fits
  lineOffsets : compact.lineOffsets.Fits
  functionOfBlock : compact.functionOfBlock.Fits
  targets : compact.targets.Fits
  targetOffsets : compact.targetOffsets.Fits
  blockAddresses : ∀ array, compact.blockAddresses = some array → array.Fits
  lineAddresses : ∀ array, compact.lineAddresses = some array → array.Fits
  lineAddressOffsets : ∀ array, compact.lineAddressOffsets = some array → array.Fits
  functionNumbers : compact.functionCount < 2 ^ 64 →
    ∀ {name : String} {number : Nat}, compact.functionNumbers[name]? = some number →
      number < 2 ^ 64
  functionMetadata : compact.functionCount < 2 ^ 64 → compact.functionMetadata.Counted
  blockMetadata : compact.blockCount < 2 ^ 64 → compact.blockMetadata.Counted

theorem storable_columnsOf (pool : Pool) (graph : Graph) (store : TokenStore)
    (keepAddresses : Bool) : (columnsOf pool graph store keepAddresses).Storable where
  lines := UnsignedArray.fits_ofWidth _ _
  lineOffsets := UnsignedArray.fits_ofWidth _ _
  functionOfBlock := UnsignedArray.fits_ofWidth _ _
  targets := UnsignedArray.fits_ofWidth _ _
  targetOffsets := UnsignedArray.fits_ofWidth _ _
  blockAddresses array kept := by
    cases keepAddresses with
    | false => cases kept
    | true => exact Option.some.inj kept ▸ SignedArray.fits_ofWidth _ _
  lineAddresses array kept := by
    cases keepAddresses with
    | false => cases kept
    | true => exact Option.some.inj kept ▸ SignedArray.fits_ofWidth _ _
  lineAddressOffsets array kept := by
    cases keepAddresses with
    | false => cases kept
    | true => exact Option.some.inj kept ▸ UnsignedArray.fits_ofWidth _ _
  functionNumbers word name number found := by
    have numbered : (columnsOf pool graph store keepAddresses).functionNumbers =
        numberFunctions graph.functionList := rfl
    rw [numbered, numberFunctions_eq] at found
    obtain ⟨⟨_, number⟩, listed, rfl⟩ := mem_of_getElem?_ofList found
    have inside := (List.getElem?_eq_some_iff.mp (List.mem_zipIdx_iff_getElem?.mp listed)).1
    rw [length_namesOf, ← functionCount_columnsOf] at inside
    exact Nat.lt_trans inside word
  functionMetadata word := by
    rw [functionCount_columnsOf] at word
    exact RunLength.counted_encode (by rwa [List.length_map])
  blockMetadata word := by
    rw [blockCount_columnsOf] at word
    exact RunLength.counted_encode (by rwa [List.length_map, List.length_map])

theorem storable_of_ofGraph {after : Pool} {graph : Graph} (reachable : graph.Reachable)
    {normalizer : Option Normalizer} {store : Option TokenStore} {options : CompactOptions}
    (built : ofGraph pool graph normalizer store options = (.ok compact, after)) :
    compact.Storable := by
  obtain ⟨next, middle, prepared, built⟩ := ofGraph_eq_ok_iff.mp built
  have laid := (reachable_of_source prepared reachable).sound.toLaid
  obtain ⟨_, _, rfl, _⟩ := (ofNormalized_eq_ok_iff laid).mp built
  exact storable_columnsOf _ _ _ _

/-- What a text holds can be stored again. -/
theorem storable_of_decode {depth : Nat} {document : Json.Document}
    (read : decode depth document = some compact) : compact.Storable := by
  obtain ⟨record, read⟩ := Json.Decoder.exists_of_known read
  obtain ⟨_, _, read⟩ := Option.bind_eq_some_iff.mp read
  obtain ⟨_, _, read⟩ := Option.bind_eq_some_iff.mp read
  obtain ⟨numbers, functionNumbers, read⟩ := Option.bind_eq_some_iff.mp read
  obtain ⟨_, lines, read⟩ := Option.bind_eq_some_iff.mp read
  obtain ⟨_, lineOffsets, read⟩ := Option.bind_eq_some_iff.mp read
  obtain ⟨_, functionOfBlock, read⟩ := Option.bind_eq_some_iff.mp read
  obtain ⟨_, _, read⟩ := Option.bind_eq_some_iff.mp read
  obtain ⟨_, blockAddresses, read⟩ := Option.bind_eq_some_iff.mp read
  obtain ⟨_, lineAddresses, read⟩ := Option.bind_eq_some_iff.mp read
  obtain ⟨_, lineAddressOffsets, read⟩ := Option.bind_eq_some_iff.mp read
  obtain ⟨_, targets, read⟩ := Option.bind_eq_some_iff.mp read
  obtain ⟨_, targetOffsets, read⟩ := Option.bind_eq_some_iff.mp read
  obtain ⟨_, functionMetadata, read⟩ := Option.bind_eq_some_iff.mp read
  obtain ⟨_, blockMetadata, read⟩ := Option.bind_eq_some_iff.mp read
  obtain ⟨_, _, read⟩ := Option.bind_eq_some_iff.mp read
  cases read
  have unsigned {name : String} {array : UnsignedArray}
      (found : record.required name UnsignedArray.decode = some array) : array.Fits := by
    obtain ⟨_, _, read⟩ := Json.Decoder.exists_of_required found
    exact UnsignedArray.fits_of_decode read
  have signed {name : String} {column : Option SignedArray}
      (found : record.optional name SignedArray.decode = some column) :
      ∀ array, column = some array → array.Fits := by
    rintro array rfl
    obtain ⟨_, _, read⟩ := Json.Decoder.exists_of_optional found
    exact SignedArray.fits_of_decode read
  have counted {name : String} {encoded : RunLength}
      (found : record.required name RunLength.ofJson = some encoded) : encoded.Counted := by
    obtain ⟨_, _, read⟩ := Json.Decoder.exists_of_required found
    exact RunLength.counted_of_ofJson read
  exact {
    lines := unsigned lines
    lineOffsets := unsigned lineOffsets
    functionOfBlock := unsigned functionOfBlock
    targets := unsigned targets
    targetOffsets := unsigned targetOffsets
    blockAddresses := signed blockAddresses
    lineAddresses := signed lineAddresses
    lineAddressOffsets := by
      rintro array rfl
      obtain ⟨_, _, read⟩ := Json.Decoder.exists_of_optional lineAddressOffsets
      exact UnsignedArray.fits_of_decode read
    functionNumbers := by
      intro _ name number found
      obtain ⟨_, _, read⟩ := Json.Decoder.exists_of_required functionNumbers
      obtain ⟨entry, listed, rfl⟩ := mem_of_getElem?_ofList found
      obtain ⟨_, _, here⟩ := Json.Decoder.exists_of_fields read listed
      exact Nat.lt_of_le_of_lt (Json.Decoder.natural_le here) (by decide)
    functionMetadata := fun _ => counted functionMetadata
    blockMetadata := fun _ => counted blockMetadata }

/-! ### Compact graphs that can come about -/

/-- The compact graphs that can come about. They are built from graphs that can, or read from
texts, and then normalized again, given other tokens or more metadata. -/
inductive Obtained : Compact → Prop
  | ofGraph {pool after : Pool} {graph : Graph} {normalizer : Option Normalizer}
      {store : Option TokenStore} {options : CompactOptions} {compact : Compact} :
      graph.Reachable → ofGraph pool graph normalizer store options = (.ok compact, after) →
        Obtained compact
  | normalize {pool after : Pool} {normalizer : Normalizer} {store : Option TokenStore}
      {force : Bool} {compact next : Compact} : Obtained compact →
        compact.normalize pool normalizer store force = (.ok next, after) → Obtained next
  | ofText {text : String} {compact : Compact} : ofText text = .ok compact → Obtained compact
  | setTokens {compact : Compact} (store : TokenStore) : Obtained compact →
      Obtained (compact.setTokens store)
  | dropTokens {compact : Compact} : Obtained compact → Obtained compact.dropTokens
  | updateMetadata {compact : Compact} (additions : Metadata) : Obtained compact →
      Obtained (compact.updateMetadata additions)

/-- Tokens and metadata have no part in whether the columns can be stored. -/
theorem Storable.withRecords (storable : compact.Storable) (tokens : TokenStore)
    (metadata : Metadata) : Storable { compact with tokens, metadata } :=
  { storable with }

/-- Every step leads to columns that can be stored, so every run does. -/
theorem Obtained.storable (obtained : Obtained compact) : compact.Storable := by
  induction obtained with
  | ofGraph reachable built => exact storable_of_ofGraph reachable built
  | @normalize pool after normalizer store force compact next _ normalized _ =>
    unfold Compact.normalize at normalized
    split at normalized
    · cases normalized
    · rename_i graph rebuilt
      exact storable_of_ofGraph (.ofCompact rebuilt) normalized
  | @ofText text compact read =>
    unfold Compact.ofText at read
    split at read
    · rename_i there found
      obtain ⟨document, _, found⟩ := Option.bind_eq_some_iff.mp found
      cases read
      exact storable_of_decode found
    · cases read
  | setTokens store _ storable => exact storable.withRecords store _
  | dropTokens _ storable => exact storable.withRecords .empty _
  | updateMetadata additions _ storable => exact storable.withRecords _ _

/-! ### Reading back -/

/-- The compact graph with a dictionary of its own, which holds what its token store holds. -/
def owning (compact : Compact) (pool : Pool) : Compact :=
  compact.setTokens (.own (compact.tokens.contents pool))

/-- Whether the tables of a compact graph are read back from where a file has them: its own inside
two lists and records, those of functions and blocks inside three. -/
structure TablesReadBack (compact : Compact) : Prop where
  own : compact.metadata.ReadsBack (Json.Decoder.nestingLimit - 2)
  functions : compact.functionMetadata.TablesReadBack (Json.Decoder.nestingLimit - 3)
  blocks : compact.blockMetadata.TablesReadBack (Json.Decoder.nestingLimit - 3)

theorem numbers_ofValue {numbers : Std.ExtTreeMap String Nat}
    (words : ∀ {name : String} {number : Nat}, numbers[name]? = some number → number < 2 ^ 64)
    (depth : Nat) :
    Json.Decoder.fields (Json.Decoder.natural (UInt64.size - 1)) (depth + 1)
        (.ofValue (.record (numbers.toList.map fun entry => (entry.1, .natural entry.2)))) =
      some numbers.toList := by
  refine Json.Decoder.fields_ofValue fun entry member => ?_
  have word := words (Std.ExtTreeMap.mem_toList_iff_getElem?_eq_some.mp member)
  exact Json.Decoder.natural_ofValue word (Nat.le_sub_one_of_lt word) depth

theorem flags_ofValue (flags : List BlockFlags) (depth : Nat) :
    Json.Decoder.list (Json.Decoder.natural 255) (depth + 1)
        (.ofValue (.list (flags.map fun flags => .natural flags.bits.toNat))) =
      some (flags.map fun flags => flags.bits.toNat) := by
  have written : (flags.map fun flags => Json.Value.natural flags.bits.toNat) =
      (flags.map fun flags => flags.bits.toNat).map .natural := by
    rw [List.map_map]
    rfl
  rw [written]
  refine Json.Decoder.list_ofValue fun byte member => ?_
  obtain ⟨flags, _, rfl⟩ := List.mem_map.mp member
  have small := flags.bits.toNat_lt
  exact Json.Decoder.natural_ofValue (by omega) (by omega) depth

theorem map_bits (flags : List BlockFlags) :
    ((flags.map fun flags => flags.bits.toNat).map fun bits => ⟨UInt8.ofNat bits⟩) = flags := by
  rw [List.map_map]
  refine (List.map_congr_left fun flags _ => ?_).trans (List.map_id flags)
  rw [Function.comp_apply, UInt8.ofNat_toNat]
  rfl

/-- A compact graph that can be stored is read back from its JSON. -/
theorem decode_toJson (storable : compact.Storable) (functions : compact.functionCount < 2 ^ 64)
    (blocks : compact.blockCount < 2 ^ 64) (readBack : compact.TablesReadBack) (pool : Pool) :
    decode Json.Decoder.nestingLimit (.ofValue (compact.toJson pool)) =
      some (compact.owning pool) := by
  refine Json.Decoder.known_fields rfl (by decide) fun record holds => ?_
  rw [holds.optional "normalizer" (by simp [fieldNames])
      (Json.Decoder.nullable_text_ofValue _ compact.normalizer),
    holds.required "tokens" (by simp [fieldNames])
      (Dictionary.decode_toJson (compact.tokens.contents pool) _),
    holds.required "function_name_to_idx" (by simp [fieldNames])
      (numbers_ofValue (storable.functionNumbers functions) _),
    holds.required "asm_lines" (by simp [fieldNames])
      (UnsignedArray.decode_toJson storable.lines _),
    holds.required "block_asm_idx" (by simp [fieldNames])
      (UnsignedArray.decode_toJson storable.lineOffsets _),
    holds.required "block_func_idx" (by simp [fieldNames])
      (UnsignedArray.decode_toJson storable.functionOfBlock _),
    holds.required "block_flags" (by simp [fieldNames]) (flags_ofValue compact.flags _),
    holds.optional "block_memory_addresses" (by simp [fieldNames])
      (SignedArray.nullable_decode_toJson storable.blockAddresses _),
    holds.optional "asm_memory_addresses" (by simp [fieldNames])
      (SignedArray.nullable_decode_toJson storable.lineAddresses _),
    holds.optional "block_asm_mem_addr_idx" (by simp [fieldNames])
      (UnsignedArray.nullable_decode_toJson storable.lineAddressOffsets _),
    holds.required "graph_c" (by simp [fieldNames])
      (UnsignedArray.decode_toJson storable.targets _),
    holds.required "graph_r" (by simp [fieldNames])
      (UnsignedArray.decode_toJson storable.targetOffsets _),
    holds.required "function_metadata" (by simp [fieldNames])
      (RunLength.ofJson_toJson (storable.functionMetadata functions) readBack.functions),
    holds.required "block_metadata" (by simp [fieldNames])
      (RunLength.ofJson_toJson (storable.blockMetadata blocks) readBack.blocks),
    holds.required "metadata" (by simp [fieldNames])
      (Json.Decoder.metadata_ofValue readBack.own)]
  refine (congrArg₂ (fun functionNumbers flags =>
    some { compact.owning pool with functionNumbers, flags }) ?_ ?_)
  · exact Json.ofList_toList_table compact.functionNumbers
  · exact map_bits compact.flags

/-! ### Answers -/

/-- Whether two compact graphs give the same answers over a pool: they differ in their token stores
at most, and in every count, every question about a block, a function or all edges, in the graph
that they stand for and in what normalizing leads to they agree. -/
structure AnswersLike (pool : Pool) (left right : Compact) : Prop where
  columns : left.setTokens .empty = right.setTokens .empty
  tokens : left.tokens.contents pool = right.tokens.contents pool
  blockCount : left.blockCount = right.blockCount
  functionCount : left.functionCount = right.functionCount
  lineCount : left.lineCount = right.lineCount
  edgeCount : left.edgeCount = right.edgeCount
  separator : left.separator = right.separator
  metadataCounts : left.metadataCounts = right.metadataCounts
  keepsAddresses : left.keepsAddresses = right.keepsAddresses
  blockTokens number : left.blockTokens number = right.blockTokens number
  blockLines number : left.blockLines pool number = right.blockLines pool number
  blockLineAddresses number : left.blockLineAddresses number = right.blockLineAddresses number
  blockAddress number : left.blockAddress number = right.blockAddress number
  blockFlags number : left.blockFlags number = right.blockFlags number
  blockHas fact number : left.blockHas fact number = right.blockHas fact number
  blockTargets number : left.blockTargets number = right.blockTargets number
  blockSuccessors number : left.blockSuccessors number = right.blockSuccessors number
  blockFunction number : left.blockFunction number = right.blockFunction number
  blockFunctionName number : left.blockFunctionName number = right.blockFunctionName number
  metadataOfBlock number : left.metadataOfBlock number = right.metadataOfBlock number
  blockInfo number : left.blockInfo number = right.blockInfo number
  functionName number : left.functionName number = right.functionName number
  functionBlocks number : left.functionBlocks number = right.functionBlocks number
  metadataOfFunction number : left.metadataOfFunction number = right.metadataOfFunction number
  coordinates : left.coordinates = right.coordinates
  edgeCodes : left.edgeCodes = right.edgeCodes
  adjacency backend sparse : left.adjacency backend sparse = right.adjacency backend sparse
  architecture : left.architecture = right.architecture
  describe : left.describe = right.describe
  toGraph : left.toGraph pool = right.toGraph pool
  normalize normalizer store force :
    left.normalize pool normalizer store force = right.normalize pool normalizer store force

/-- With a dictionary of its own a compact graph gives the same answers. -/
theorem answersLike_owning (compact : Compact) (pool : Pool) :
    (compact.owning pool).AnswersLike pool compact := by
  constructor <;> intros <;> rfl

theorem same_owning (compact : Compact) (pool : Pool) :
    (compact.owning pool).same pool compact = true := by
  have tokens : (compact.owning pool).tokens.same pool compact.tokens = true :=
    compact.tokens.same_own_contents pool
  rw [same, tokens]
  simp only [owning, setTokens, beq_self_eq_true, Metadata.same_self, RunLength.same_self,
    Bool.and_self]

/-- A compact graph comes back from its text: it equals the one that was written, gives the same
answers, and is written as the same text. -/
theorem obtained_comes_back (obtained : Obtained compact)
    (functions : compact.functionCount < 2 ^ 64) (blocks : compact.blockCount < 2 ^ 64)
    (readBack : compact.TablesReadBack) (pool : Pool) :
    ∃ next, ofText (compact.toText pool) = .ok next ∧ next.same pool compact = true ∧
      next.AnswersLike pool compact ∧ ∀ later, next.toText later = compact.toText pool := by
  refine ⟨compact.owning pool, ?_, compact.same_owning pool, compact.answersLike_owning pool,
    fun _ => rfl⟩
  rw [ofText, toText, Json.Decoder.read_toText,
    decode_toJson obtained.storable functions blocks readBack]

/-- The small compact graph with a note, over a shared dictionary. -/
def notedColumns : Compact :=
  (loopColumns.updateMetadata (.ofFields [("note", .text "loop")])).setTokens (.shared 0)

theorem obtained_notedColumns : Obtained notedColumns :=
  .setTokens (.shared 0)
    (.updateMetadata _ (.ofGraph (Graph.reachable_loopGraph _) (ofGraph_loopGraph true)))

theorem notedColumns_tablesReadBack : notedColumns.TablesReadBack where
  own := by
    have note : notedColumns.metadata.toList = [("note", .text "loop")] := rfl
    rw [Metadata.ReadsBack, note]
    exact List.forall_mem_singleton.mpr (Json.Value.readsBack_text _ "loop")
  functions table member := by
    have counted : notedColumns.functionMetadata = [.run 2] := rfl
    rw [counted] at member
    cases List.mem_singleton.mp member
  blocks table member := by
    have counted : notedColumns.blockMetadata = [.run 3] := rfl
    rw [counted] at member
    cases List.mem_singleton.mp member

/-- The small compact graph comes back with the tokens of the shared dictionary. -/
theorem notedColumns_come_back :
    notedColumns.functionCount < 2 ^ 64 ∧ notedColumns.blockCount < 2 ^ 64 ∧
      notedColumns.TablesReadBack ∧
      ∃ next, ofText (notedColumns.toText [.ofList ["call", "jmp", "ret"]]) = .ok next ∧
        next.same [.ofList ["call", "jmp", "ret"]] notedColumns = true ∧
        next.AnswersLike [.ofList ["call", "jmp", "ret"]] notedColumns ∧
        ∀ later, next.toText later =
          notedColumns.toText [.ofList ["call", "jmp", "ret"]] :=
  ⟨wordSized_loopColumns.functions, wordSized_loopColumns.blocks, notedColumns_tablesReadBack,
    obtained_comes_back obtained_notedColumns wordSized_loopColumns.functions
      wordSized_loopColumns.blocks notedColumns_tablesReadBack _⟩

end Compact

end FlowGraph
