/-
This file says which compact graphs are safe to query. A text is read field by field, so the
columns of a compact graph that was read need not fit together. Most misfits do no harm: what is
missing reads as nothing, and what leads nowhere is reported. But the program stops where flags are
missing, where there are fewer targets than the flags promise separators, and where there is more
metadata than can be counted or held. Where the promised separators do not stand in the column of
targets, edges are miscounted. Without such misfits no question stops the program, and the edges
are counted as they are listed.
-/

import FlowGraph.Compact.Format
import FlowGraph.Proofs.Refusals

namespace FlowGraph

namespace Compact

variable {First Second State : Type} {bound : Nat} {compact : Compact} {current : Pool}

/-! ### Outcomes that are reported -/

/-- Whether a computation returns or reports a failure. -/
def NeverStops (outcome : Except CompactError First) : Prop :=
  ∀ failure, outcome = .error failure → failure.stops = false

theorem neverStops_ok (result : First) : NeverStops (.ok result) := fun _ fails => nomatch fails

theorem neverStops_error {failure : CompactError} (reported : failure.stops = false) :
    NeverStops (.error failure : Except CompactError First) := by
  intro other fails
  rwa [← Except.error.inj fails]

theorem NeverStops.bind {first : Except CompactError First}
    {next : First → Except CompactError Second} (never : NeverStops first)
    (continued : ∀ value, first = .ok value → NeverStops (next value)) :
    NeverStops (first >>= next) := by
  intro failure fails
  rcases Outcome.bind_eq_error_iff.mp fails with here | ⟨value, succeeds, later⟩
  · exact never failure here
  · exact continued value succeeds failure later

/-- What comes first in a computation that never stops does not stop either. -/
theorem NeverStops.first {first : Except CompactError First}
    {next : First → Except CompactError Second} (never : NeverStops (first >>= next)) :
    NeverStops first :=
  fun failure fails => never failure (Outcome.bind_eq_error_iff.mpr (Or.inl fails))

theorem NeverStops.next {first : Except CompactError First} {value : First}
    {next : First → Except CompactError Second} (never : NeverStops (first >>= next))
    (told : first = .ok value) : NeverStops (next value) :=
  fun failure fails => never failure (Outcome.bind_eq_error_iff.mpr (Or.inr ⟨value, told, fails⟩))

theorem NeverStops.map {outcome : Except CompactError First} {change : First → Second}
    (never : NeverStops outcome) : NeverStops (outcome.map change) :=
  fun failure fails => never failure (Outcome.map_eq_error_iff.mp fails)

theorem neverStops_mapM {Item : Type} {step : Item → Except CompactError First}
    {items : List Item} (each : ∀ item, NeverStops (step item)) :
    NeverStops (items.mapM step) := by
  intro failure fails
  obtain ⟨item, _, here⟩ := Outcome.exists_of_mapM_eq_error fails
  exact each item failure here

theorem neverStops_foldlM {Item : Type} {step : State → Item → Except CompactError State}
    {items : List Item} {start : State} (each : ∀ state item, NeverStops (step state item)) :
    NeverStops (items.foldlM step start) := by
  intro failure fails
  obtain ⟨item, _, state, here⟩ := Outcome.exists_of_foldlM_eq_error fails
  exact each state item failure here

/-! ### Questions about blocks -/

/-- Whether a question about a block is answered or its failure reported, and whether the number of
the block is refused exactly if it is not below the bound. -/
structure SafeBelow (bound : Nat) (ask : Nat → Except CompactError First) : Prop where
  reported : ∀ {number : Nat}, number < bound → NeverStops (ask number)
  accepted : ∀ {number : Nat}, number < bound → ∀ other limit,
    ask number ≠ .error (.numberOutOfRange .blocks other limit)
  refused : ∀ {number : Nat}, bound ≤ number →
    ask number = .error (.numberOutOfRange .blocks number bound)

theorem AnswersBelow.safe {ask : Nat → Except CompactError First}
    (answers : AnswersBelow .blocks bound ask) : SafeBelow bound ask where
  reported inside := by
    obtain ⟨answer, told⟩ := answers.answered inside
    exact told ▸ neverStops_ok answer
  accepted inside other limit fails := by
    obtain ⟨answer, told⟩ := answers.answered inside
    exact nomatch told.symm.trans fails
  refused := answers.refused

/-- A question is safe if below the bound only other failures than such of block numbers occur, and
all of them are reported. -/
theorem SafeBelow.of_failures {ask : Nat → Except CompactError First}
    (failures : ∀ {number : Nat}, number < bound → ∀ {failure : CompactError},
      ask number = .error failure → failure.stops = false ∧
        ∀ other limit, failure ≠ .numberOutOfRange .blocks other limit)
    (refused : ∀ {number : Nat}, bound ≤ number →
      ask number = .error (.numberOutOfRange .blocks number bound)) : SafeBelow bound ask where
  reported inside _ fails := (failures inside fails).1
  accepted inside other limit fails := (failures inside fails).2 other limit rfl
  refused := refused

/-- A question that is always reported never stops the program, whatever the number. -/
theorem SafeBelow.neverStops {ask : Nat → Except CompactError First} (safe : SafeBelow bound ask)
    (number : Nat) : NeverStops (ask number) := by
  by_cases inside : number < bound
  · exact safe.reported inside
  · rw [safe.refused (Nat.le_of_not_lt inside)]
    exact neverStops_error rfl

/-- The lines of a block are told, or a token is reported that is not in the dictionary. -/
theorem safeBelow_blockLines (compact : Compact) (current : Pool) :
    SafeBelow compact.blockCount (compact.blockLines current) := by
  refine .of_failures (fun inside failure fails => ?_) fun outside =>
    blockLines_of_le current outside
  obtain ⟨tokens, told⟩ := (answersBelow_blockTokens compact).answered inside
  rw [blockLines, told] at fails
  obtain ⟨token, _, missing⟩ := Outcome.exists_of_mapM_eq_error fails
  split at missing
  · cases missing
  · obtain rfl := Except.error.inj missing
    exact ⟨rfl, fun other limit => CompactError.noConfusion⟩

/-- Flags are safe to ask for if and only if there are enough of them. -/
theorem safeBelow_blockFlags_iff :
    SafeBelow compact.blockCount compact.blockFlags ↔
      compact.blockCount ≤ compact.flags.length := by
  refine ⟨fun safe => Nat.le_of_not_lt fun short => ?_,
    fun covered => (answersBelow_blockFlags covered).safe⟩
  have stopped : compact.blockFlags compact.flags.length =
      .error (.flagsMissing compact.flags.length) := by
    rw [blockFlags, checkBlock, if_pos short, List.getElem?_eq_none (Nat.le_refl _)]
    rfl
  cases safe.reported short _ stopped

/-- Metadata of blocks is safe to ask for if and only if it can be counted up to the last block. -/
theorem safeBelow_metadataOfBlock_iff :
    SafeBelow compact.blockCount compact.metadataOfBlock ↔
      compact.blockMetadata.ReadableBelow compact.blockCount := by
  refine ⟨fun safe => RunLength.readableBelow_iff.mpr fun number inside => ?_,
    fun readable => (answersBelow_metadataOfBlock readable).safe⟩
  cases read : compact.blockMetadata.tableAt number with
  | ok found => exact ⟨found, rfl⟩
  | error fault =>
    have stopped : compact.metadataOfBlock number = .error (.metadata fault) := by
      rw [metadataOfBlock, checkBlock, if_pos inside, read]
      rfl
    cases safe.reported inside _ stopped

/-- The name of the function of a block is told, or the function is reported missing. -/
theorem safeBelow_blockFunctionName (compact : Compact) :
    SafeBelow compact.blockCount compact.blockFunctionName := by
  refine .of_failures (fun inside failure fails => ?_) fun outside =>
    Outcome.bind_eq_error_iff.mpr (Or.inl ((answersBelow_blockFunction compact).refused outside))
  obtain ⟨function, told⟩ := (answersBelow_blockFunction compact).answered inside
  rw [blockFunctionName, told, Outcome.ok_bind] at fails
  by_cases known : function < compact.functionCount
  · obtain ⟨name, named⟩ := (answersBelow_functionName compact).answered known
    exact nomatch named.symm.trans fails
  · rw [(answersBelow_functionName compact).refused (Nat.le_of_not_lt known)] at fails
    obtain rfl := Except.error.inj fails
    refine ⟨rfl, fun other limit same => ?_⟩
    cases same

/-! ### All blocks at once -/

/-- The flags of a block, none if they are missing. -/
def flagsOf (compact : Compact) (number : Nat) : BlockFlags := compact.flags[number]?.getD ⟨0⟩

/-- The targets of a block with their kinds, as its flags and its part of the column tell them. -/
def typedPart (compact : Compact) (number : Nat) : List (Nat × EdgeKind) :=
  typedTargets (compact.flagsOf number) compact.separator (compact.storedTargets number)

theorem blockTargets_eq (covered : compact.blockCount ≤ compact.flags.length) {number : Nat}
    (inside : number < compact.blockCount) :
    compact.blockTargets number = .ok (compact.typedPart number) := by
  have found := List.getElem?_eq_getElem (Nat.lt_of_lt_of_le inside covered)
  rw [blockTargets, blockFlags, checkBlock, if_pos inside, found, typedPart, flagsOf, found]
  rfl

/-- The listed edges are those of all blocks. -/
theorem entries_eq (covered : compact.blockCount ≤ compact.flags.length) :
    compact.entries = .ok ((List.range compact.blockCount).flatMap fun number =>
      (compact.typedPart number).map fun target => ((number, target.1), target.2)) := by
  unfold entries
  refine Outcome.bind_eq_ok_iff.mpr ⟨_, Outcome.mapM_eq_ok_iff.mpr ?_, rfl⟩
  rw [List.forall₂_map_right_iff, List.forall₂_same]
  intro number listed
  rw [blockTargets_eq covered (List.mem_range.mp listed)]
  rfl

/-! ### Rebuilding -/

theorem neverStops_mapError (outcome : Except GraphError First) :
    NeverStops (outcome.mapError .graph) := by
  cases outcome with
  | ok result => exact neverStops_ok result
  | error failure => exact neverStops_error rfl

theorem neverStops_rebuiltAddresses (compact : Compact) :
    NeverStops compact.rebuiltAddresses := by
  unfold rebuiltAddresses
  split
  · refine neverStops_mapM fun address => ?_
    unfold storedAddress
    split
    · exact neverStops_ok _
    · exact neverStops_error rfl
  · exact neverStops_ok _

theorem neverStops_addressOf (compact : Compact) (addresses : List Address) (number : Nat) :
    NeverStops (compact.addressOf addresses number) := by
  unfold addressOf
  split
  · exact neverStops_ok _
  · exact neverStops_error rfl

/-- Rebuilding a block asks for its lines and flags, which are all that can go wrong. -/
theorem neverStops_rebuildInto (covered : compact.blockCount ≤ compact.flags.length)
    (current : Pool) (addresses : List Address) (drafts : List FunctionDraft)
    (entry : Metadata × Nat) :
    NeverStops (compact.rebuildInto current addresses drafts entry) := by
  have targets := (answersBelow_blockTargets covered).safe.neverStops
  have flags := (answersBelow_blockFlags covered).safe.neverStops
  have lineAddresses := (answersBelow_blockLineAddresses compact).safe.neverStops
  have function := (answersBelow_blockFunction compact).safe.neverStops
  have lines := (safeBelow_blockLines compact current).neverStops
  have edge (target : Nat × EdgeKind) : NeverStops (do
      let address ← compact.addressOf addresses target.1
      return (address, target.2) : Except CompactError (Address × EdgeKind)) :=
    (neverStops_addressOf compact addresses target.1).bind fun _ _ => neverStops_ok _
  have block : NeverStops (compact.rebuiltBlock current addresses entry.2 entry.1) :=
    (neverStops_addressOf compact addresses entry.2).bind fun _ _ =>
      (lineAddresses entry.2).bind fun _ _ => (lines entry.2).bind fun _ _ =>
        (targets entry.2).bind fun _ _ => (neverStops_mapM edge).bind fun _ _ => neverStops_ok _
  refine block.bind fun _ _ => (flags entry.2).bind fun _ _ => (function entry.2).bind fun _ _ => ?_
  split
  · exact neverStops_ok _
  · exact neverStops_error rfl

theorem neverStops_decode_iff {encoded : RunLength} :
    NeverStops (encoded.decode.mapError .metadata) ↔
      encoded.tableCount ≤ RunLength.greatestCount := by
  constructor
  · intro never
    cases decoded : encoded.decode with
    | ok tables => exact (RunLength.decode_eq_ok_iff.mp decoded).1
    | error fault =>
      rw [decoded] at never
      cases never _ rfl
  · intro held
    rw [RunLength.decode_eq_ok_iff.mpr ⟨held, rfl⟩]
    exact neverStops_ok _

theorem neverStops_bareDrafts_iff {tables : List Metadata} :
    NeverStops (compact.bareDrafts tables) ↔ tables.length ≤ greatestDraftCount := by
  unfold bareDrafts
  split
  · rename_i held
    exact iff_of_true (neverStops_ok _) held
  · rename_i many
    exact iff_of_false (fun never => nomatch never _ rfl) many

/-- Expanding stops the program if and only if there are addresses for the blocks, but memory cannot
hold all metadata. -/
theorem neverStops_toGraph_iff (covered : compact.blockCount ≤ compact.flags.length)
    (current : Pool) :
    NeverStops (compact.toGraph current) ↔
      ∀ addresses, compact.rebuiltAddresses = .ok addresses →
        compact.functionMetadata.tableCount ≤ greatestDraftCount ∧
          compact.blockMetadata.tableCount ≤ RunLength.greatestCount := by
  constructor
  · intro never addresses rebuilt
    have decoding := never.next rebuilt
    have held := neverStops_decode_iff.mp decoding.first
    have decoded : compact.functionMetadata.decode.mapError CompactError.metadata = .ok _ :=
      Outcome.mapError_eq_ok_iff.mpr (RunLength.decode_eq_ok_iff.mpr ⟨held, rfl⟩)
    have drafting := decoding.next decoded
    have functions := neverStops_bareDrafts_iff.mp drafting.first
    have bare : compact.bareDrafts compact.functionMetadata.expansion = .ok _ := if_pos functions
    have blocks := neverStops_decode_iff.mp (drafting.next bare).first
    exact ⟨RunLength.length_expansion _ ▸ functions, blocks⟩
  · intro held
    refine (neverStops_rebuiltAddresses compact).bind fun addresses rebuilt => ?_
    obtain ⟨functions, blocks⟩ := held addresses rebuilt
    have few : compact.functionMetadata.tableCount ≤ RunLength.greatestCount :=
      Nat.le_trans functions (by decide)
    refine (neverStops_decode_iff.mpr few).bind fun functionTables decoded => ?_
    obtain ⟨_, rfl⟩ := RunLength.decode_eq_ok_iff.mp (Outcome.mapError_eq_ok_iff.mp decoded)
    rw [← RunLength.length_expansion] at functions
    refine (neverStops_bareDrafts_iff.mpr functions).bind fun bareDrafts _ => ?_
    refine (neverStops_decode_iff.mpr blocks).bind fun tables _ => ?_
    exact (neverStops_foldlM (neverStops_rebuildInto covered current addresses)).bind fun _ _ =>
      neverStops_mapError _

/-! ### Columns that fit together -/

/-- Whether the columns of a compact graph fit together as far as that matters for questions. There
are flags for every block, and besides the edges there are as many targets as the flags promise
separators; the metadata of no block ends beyond the machine words; and once there are addresses
for the blocks, memory can hold all metadata. -/
structure Consistent (compact : Compact) : Prop where
  flags : compact.blockCount ≤ compact.flags.length
  separators : ∃ entries, compact.entries = .ok entries ∧
    compact.targets.size = entries.length + compact.separatorCount
  metadata : compact.blockMetadata.ReadableBelow compact.blockCount
  tables : ∀ addresses, compact.rebuiltAddresses = .ok addresses →
    compact.functionMetadata.tableCount ≤ greatestDraftCount ∧
      compact.blockMetadata.tableCount ≤ RunLength.greatestCount

theorem Tiles.start_le {offsets : UnsignedArray} {rows length : Nat}
    (tiles : Tiles offsets rows length) {number : Nat} (inside : number ≤ rows) :
    (range offsets number).1 ≤ length := by
  rw [← tiles.ends]
  induction inside using Nat.decreasingInduction with
  | self => exact Nat.le_refl _
  | of_succ number before inductionHypothesis =>
    have ordered := tiles.ordered number before
    rw [tiles.meets number before] at ordered
    exact Nat.le_trans ordered inductionHypothesis

/-- The parts of all rows are as long as the column together. -/
theorem Tiles.length_flatMap {offsets : UnsignedArray} {rows : Nat} {column : UnsignedArray}
    (tiles : Tiles offsets rows column.size) :
    ((List.range rows).flatMap fun number =>
      column.slice (range offsets number).1 (range offsets number).2).length = column.size := by
  suffices upTo : ∀ count ≤ rows, ((List.range count).flatMap fun number =>
      column.slice (range offsets number).1 (range offsets number).2).length =
        (range offsets count).1 from (upTo rows (Nat.le_refl rows)).trans tiles.ends
  intro count inside
  induction count with
  | zero => exact tiles.starts.symm
  | succ count inductionHypothesis =>
    have ordered := tiles.ordered count inside
    have meets := tiles.meets count inside
    have within : (range offsets count).2 ≤ column.elements.length := by
      rw [meets]
      exact tiles.start_le inside
    rw [List.range_succ, List.flatMap_append, List.length_append,
      inductionHypothesis (Nat.le_of_succ_le inside), List.flatMap_singleton,
      UnsignedArray.slice, sliceOf, if_pos ⟨ordered, within⟩, List.length_take,
      List.length_drop, ← meets]
    omega

/-- Around a separator a part is one element shorter. -/
theorem length_around_separator {separator : Nat} {part : List Nat} (member : separator ∈ part) :
    part.length = (part.takeWhile fun target => target != separator).length +
      ((part.dropWhile fun target => target != separator).drop 1).length + 1 := by
  have whole := congrArg List.length
    (List.takeWhile_append_dropWhile (p := fun target => target != separator) (l := part))
  have rest : part.dropWhile (fun target => target != separator) ≠ [] := by
    rw [Ne, List.dropWhile_eq_nil_iff]
    intro none
    simpa using none separator member
  have some := List.length_pos_of_ne_nil rest
  rw [List.length_append] at whole
  rw [List.length_drop]
  omega

/-- The part of a block has one element more than the block has targets if its flags promise a
separator and there is one. -/
theorem length_typedTargets {flags : BlockFlags} {separator : Nat} {part : List Nat}
    (promised : flags.has .multi = true → flags.has .call = true ∧ separator ∈ part) :
    part.length = (typedTargets flags separator part).length +
      if flags.has .multi then 1 else 0 := by
  unfold typedTargets
  cases call : flags.has .call with
  | false =>
    have multi : flags.has .multi = false := by
      rw [Bool.eq_false_iff]
      intro promise
      rw [(promised promise).1] at call
      exact nomatch call
    simp [multi]
  | true =>
    cases multi : flags.has .multi with
    | false => cases part <;> simp
    | true =>
      simp only [Bool.not_true, Bool.false_eq_true, if_false, List.length_append, List.length_map,
        if_true]
      exact length_around_separator (promised multi).2

theorem separatorCount_eq (flags : compact.flags.length = compact.blockCount) :
    compact.separatorCount =
      (List.range compact.blockCount).countP fun number => (compact.flagsOf number).has .multi := by
  have listed : compact.flags = (List.range compact.blockCount).map compact.flagsOf := by
    refine List.ext_getElem (by simp [flags]) fun number inside _ => ?_
    rw [List.getElem_map, List.getElem_range, flagsOf, List.getElem?_eq_getElem inside,
      Option.getD_some]
  rw [separatorCount, listed, List.countP_map]
  rfl

/-- What a file has to obey: there are flags for every block and no others, the offsets of the
targets cut their column into parts, a separator stands where the flags promise one, and memory can
hold all metadata. -/
theorem consistent_of_tiles (flags : compact.flags.length = compact.blockCount)
    (tiles : Tiles compact.targetOffsets compact.blockCount compact.targets.size)
    (promised : ∀ number < compact.blockCount, (compact.flagsOf number).has .multi = true →
      (compact.flagsOf number).has .call = true ∧
        compact.separator ∈ compact.storedTargets number)
    (functionTables : compact.functionMetadata.tableCount ≤ greatestDraftCount)
    (blockTables : compact.blockMetadata.tableCount ≤ RunLength.greatestCount) :
    compact.Consistent := by
  have covered := Nat.le_of_eq flags.symm
  have word := Nat.lt_of_le_of_lt blockTables (by decide : RunLength.greatestCount < UInt64.size)
  refine ⟨covered, ⟨_, entries_eq covered, ?_⟩, RunLength.readableBelow_of_lt word _,
    fun _ _ => ⟨functionTables, blockTables⟩⟩
  rw [separatorCount_eq flags, ← tiles.length_flatMap]
  refine length_flatMap_eq_add_countP fun number listed => ?_
  rw [List.length_map]
  exact length_typedTargets (promised number (List.mem_range.mp listed))

/-- Where a separator is needed there is a call, and the separator is stored. -/
theorem mem_encodeTargets_of_needsSeparator {calls normals : List Nat}
    (needed : needsSeparator calls normals = true) :
    (!calls.isEmpty) = true ∧ none ∈ encodeTargets calls normals := by
  refine ⟨?_, ?_⟩
  · cases calls with
    | nil => exact nomatch needed
    | cons _ _ => rfl
  · rw [encodeTargets, if_pos needed]
    simp

theorem flagsOf_eq {number : Nat} {flags : BlockFlags}
    (told : compact.blockFlags number = .ok flags) : compact.flagsOf number = flags := by
  obtain ⟨_, _, found⟩ := Outcome.bind_eq_ok_iff.mp told
  unfold flagsOf
  split at found
  · rename_i there
    rw [there, Option.getD_some]
    exact Except.ok.inj found
  · exact nomatch found

/-- The columns of a graph that was compacted fit together. -/
theorem consistent_of_ofGraph {pool after : Pool} {graph : Graph} (reachable : graph.Reachable)
    {normalizer : Option Normalizer} {store : Option TokenStore} {options : CompactOptions}
    (built : ofGraph pool graph normalizer store options = (.ok compact, after))
    (sized : compact.MemorySized) : compact.Consistent := by
  obtain ⟨next, middle, prepared, built⟩ := ofGraph_eq_ok_iff.mp built
  have laid := (reachable_of_source prepared reachable).sound.toLaid
  obtain ⟨closed, _, rfl, rfl⟩ := (ofNormalized_eq_ok_iff laid).mp built
  have keeps := keepsEdgesOf_columnsOf closed sized.toWordSized
  refine consistent_of_tiles length_flags_columnsOf keeps.tiles (fun number inside multi => ?_)
    (tableCount_functionMetadata_columnsOf.trans_le sized.functionDrafts)
    (tableCount_blockMetadata_columnsOf.trans_le sized.blockTables)
  rw [blockCount_columnsOf] at inside
  have found := List.getElem?_eq_getElem inside
  obtain ⟨flags, told, call, separated⟩ := keeps.flagged found
  rw [flagsOf_eq told] at multi ⊢
  obtain ⟨called, stored⟩ := mem_encodeTargets_of_needsSeparator (separated.symm.trans multi)
  refine ⟨call.trans called, ?_⟩
  rw [keeps.encoded found]
  exact List.mem_map.mpr ⟨none, stored, rfl⟩

/-! ### Safe compact graphs -/

/-- Whether a compact graph is safe to query: no question stops the program, numbers of blocks are
refused exactly beyond the bound, and edges are counted as they are listed. -/
structure Queryable (compact : Compact) (current : Pool) : Prop where
  tokens : SafeBelow compact.blockCount compact.blockTokens
  lines : SafeBelow compact.blockCount (compact.blockLines current)
  lineAddresses : SafeBelow compact.blockCount compact.blockLineAddresses
  address : SafeBelow compact.blockCount compact.blockAddress
  flags : SafeBelow compact.blockCount compact.blockFlags
  facts : ∀ fact, SafeBelow compact.blockCount (compact.blockHas fact)
  targets : SafeBelow compact.blockCount compact.blockTargets
  successors : SafeBelow compact.blockCount compact.blockSuccessors
  function : SafeBelow compact.blockCount compact.blockFunction
  functionName : SafeBelow compact.blockCount compact.blockFunctionName
  metadata : SafeBelow compact.blockCount compact.metadataOfBlock
  info : SafeBelow compact.blockCount compact.blockInfo
  coordinates : NeverStops compact.coordinates
  codes : NeverStops compact.edgeCodes
  adjacency : ∀ backend sparse, NeverStops (compact.adjacency backend sparse)
  expanding : NeverStops (compact.toGraph current)
  counted : ∃ entries, compact.entries = .ok entries ∧ compact.edgeCount = .ok entries.length
  described : NeverStops compact.describe

theorem edgeCount_eq_ok_iff {count : Nat} :
    compact.edgeCount = .ok count ↔ compact.targets.size = count + compact.separatorCount := by
  unfold edgeCount
  split
  · rw [Except.ok.injEq]
    omega
  · refine iff_of_false (fun equal => (nomatch equal)) ?_
    omega

/-- A compact graph is safe to query if and only if its columns fit together. -/
theorem queryable_iff_consistent : compact.Queryable current ↔ compact.Consistent := by
  constructor
  · intro safe
    obtain ⟨entries, told, counted⟩ := safe.counted
    have covered := safeBelow_blockFlags_iff.mp safe.flags
    exact ⟨covered, ⟨entries, told, edgeCount_eq_ok_iff.mp counted⟩,
      safeBelow_metadataOfBlock_iff.mp safe.metadata,
      (neverStops_toGraph_iff covered current).mp safe.expanding⟩
  · intro consistent
    have covered := consistent.flags
    obtain ⟨entries, told, sum⟩ := consistent.separators
    have counted := edgeCount_eq_ok_iff.mpr sum
    have never : NeverStops compact.entries := told ▸ neverStops_ok entries
    exact {
      tokens := (answersBelow_blockTokens compact).safe
      lines := safeBelow_blockLines compact current
      lineAddresses := (answersBelow_blockLineAddresses compact).safe
      address := (answersBelow_blockAddress compact).safe
      flags := (answersBelow_blockFlags covered).safe
      facts := fun fact => (answersBelow_blockHas covered fact).safe
      targets := (answersBelow_blockTargets covered).safe
      successors := (answersBelow_blockSuccessors covered).safe
      function := (answersBelow_blockFunction compact).safe
      functionName := safeBelow_blockFunctionName compact
      metadata := (answersBelow_metadataOfBlock consistent.metadata).safe
      info := (answersBelow_blockInfo covered consistent.metadata).safe
      coordinates := never.map
      codes := never.map
      adjacency := fun backend sparse =>
        (neverStops_mapError _).bind fun _ _ => never.bind fun _ _ => neverStops_ok _
      expanding := (neverStops_toGraph_iff covered current).mpr consistent.tables
      counted := ⟨entries, told, counted⟩
      described :=
        NeverStops.bind (counted ▸ neverStops_ok entries.length) fun _ _ => neverStops_ok _ }

theorem loopColumns_queryable : loopColumns.Queryable [] :=
  queryable_iff_consistent.mpr
    (consistent_of_ofGraph (Graph.reachable_loopGraph _) (ofGraph_loopGraph true)
      ⟨wordSized_loopColumns, by decide, by decide⟩)

/-! ### Texts whose columns do not fit together -/

/-- One block without flags. -/
def unflaggedText : String :=
  "[null,[],\x7b\"f\":0\x7d,\x7b\"u8\":[]\x7d,\x7b\"u8\":[0,0]\x7d,\x7b\"u8\":[0]\x7d,[]," ++
    "null,null,null,\x7b\"u8\":[]\x7d,\x7b\"u8\":[0,0]\x7d,[],[\x7b\x7d],\x7b\x7d]"

/-- One block without targets whose flags promise a separator. -/
def promisingText : String :=
  "[null,[],\x7b\"f\":0\x7d,\x7b\"u8\":[]\x7d,\x7b\"u8\":[0,0]\x7d,\x7b\"u8\":[0]\x7d,[16]," ++
    "null,null,null,\x7b\"u8\":[]\x7d,\x7b\"u8\":[0,0]\x7d,[],[\x7b\x7d],\x7b\x7d]"

/-- Two blocks with empty metadata for both and for as many others as a machine word can count. -/
def overflowingText : String :=
  "[null,[],\x7b\"f\":0\x7d,\x7b\"u8\":[]\x7d,\x7b\"u8\":[0,0,0]\x7d,\x7b\"u8\":[0,0]\x7d,[0,0]," ++
    "null,null,null,\x7b\"u8\":[]\x7d,\x7b\"u8\":[0,0,0]\x7d,[],[1,18446744073709551615],\x7b\x7d]"

/-- No blocks and no functions, but empty metadata for as many as a machine word can count. -/
def crowdedText : String :=
  "[null,[],\x7b\x7d,\x7b\"u8\":[]\x7d,\x7b\"u8\":[0]\x7d,\x7b\"u8\":[]\x7d,[]," ++
    "null,null,null,\x7b\"u8\":[]\x7d,\x7b\"u8\":[0]\x7d,[18446744073709551615],[],\x7b\x7d]"

/-- Whether a computation stops the program. -/
def stopsIn (outcome : Except CompactError First) : Bool :=
  match outcome with
  | .error failure => failure.stops
  | .ok _ => false

theorem not_neverStops_of_stopsIn {outcome : Except CompactError First}
    (stops : stopsIn outcome = true) : ¬ NeverStops outcome := by
  intro never
  cases outcome with
  | ok result => cases stops
  | error failure => exact Bool.false_ne_true ((never failure rfl).symm.trans stops)

/-- A text that can be read is not safe to query if what its compact graph has been tested for rules
that out. -/
theorem exists_ofText {text : String} {test : Compact → Prop} [DecidablePred test]
    (reads : (ofText text).toOption.any (fun compact => test compact) = true)
    (excludes : ∀ {compact : Compact}, test compact → ¬ compact.Queryable []) :
    ∃ compact, ofText text = .ok compact ∧ test compact ∧ ¬ compact.Queryable [] := by
  cases read : ofText text with
  | error failure =>
    rw [read] at reads
    exact nomatch reads
  | ok compact =>
    rw [read] at reads
    have tested : test compact := of_decide_eq_true reads
    exact ⟨compact, rfl, tested, excludes tested⟩

/-- Texts that are read although the program stops later. With the first text it stops at the flags
of the block, at its edges, at all edges and in expanding the graph. With the second it stops in
counting the edges, of which there are none. With the third it stops at the metadata of the last
block, and with the fourth in expanding the graph. -/
theorem texts_unsafe_to_query :
    (∃ compact, ofText unflaggedText = .ok compact ∧
      (stopsIn (compact.blockFlags 0) ∧ stopsIn (compact.blockTargets 0) ∧
        stopsIn compact.coordinates ∧ stopsIn (compact.toGraph [])) ∧
      ¬ compact.Queryable []) ∧
    (∃ compact, ofText promisingText = .ok compact ∧
      (compact.entries.toOption = some [] ∧ stopsIn compact.edgeCount ∧
        stopsIn compact.describe) ∧
      ¬ compact.Queryable []) ∧
    (∃ compact, ofText overflowingText = .ok compact ∧
      (compact.blockCount = 2 ∧ stopsIn (compact.blockInfo 1)) ∧ ¬ compact.Queryable []) ∧
    ∃ compact, ofText crowdedText = .ok compact ∧
      (compact.blockCount = 0 ∧ stopsIn (compact.toGraph [])) ∧ ¬ compact.Queryable [] := by
  refine ⟨?_, ?_, ?_, ?_⟩
  · refine exists_ofText (by decide +kernel) fun stops safe => ?_
    exact not_neverStops_of_stopsIn stops.1 (safe.flags.neverStops 0)
  · refine exists_ofText (by decide +kernel) fun stops safe => ?_
    exact not_neverStops_of_stopsIn stops.2.2 safe.described
  · refine exists_ofText (by decide +kernel) fun stops safe => ?_
    exact not_neverStops_of_stopsIn stops.2 (safe.info.neverStops 1)
  · refine exists_ofText (by decide +kernel) fun stops safe => ?_
    exact not_neverStops_of_stopsIn stops.2 safe.expanding

end Compact

end FlowGraph
