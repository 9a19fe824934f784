/-
This file says when a batch of functions can be added to a graph, and what the
graph is afterwards. The check of a batch goes through functions and blocks and
remembers which addresses the batch has used up; it succeeds exactly if all
addresses are free and no two of them are equal, so the batch as a whole can be
described without the order of the check. Placing the functions then fills the
tables of the graph, and the graph is laid out as it was before.
-/

import FlowGraph.Proofs.Outcome
import FlowGraph.Proofs.Sound

namespace FlowGraph

/-! ### What a batch contributes -/

namespace FunctionDraft

/-- The function that a draft becomes at an address. -/
def placed (draft : FunctionDraft) (address : Address) : Function :=
  ⟨address, draft.name, draft.isExternal, draft.metadata, draft.blocks.map Block.address⟩

/-- The blocks of a draft as those of the function at an address. -/
def adopted (draft : FunctionDraft) (address : Address) : List Block :=
  draft.blocks.map fun block => { block with parent := some address }

theorem map_address_adopted (draft : FunctionDraft) (address : Address) :
    (draft.adopted address).map Block.address = draft.blocks.map Block.address := by
  rw [adopted, List.map_map]
  rfl

end FunctionDraft

namespace Graph

/-- Whether a block has one address for each line, or none at all. -/
def MatchesLines (block : Block) : Prop :=
  block.lineAddresses ≠ [] → block.lineAddresses.length = block.lines.length

/-- Whether a batch can be added with its functions at these addresses. -/
structure Admits (graph : Graph) (drafts : List FunctionDraft) (addresses : List Address) :
    Prop where
  resolved : drafts.map FunctionDraft.resolvedAddress? = addresses.map some
  functionsFree : ∀ address ∈ addresses, graph.functions[address]? = none
  functionsDistinct : addresses.Nodup
  blocksFree : ∀ block ∈ drafts.flatMap FunctionDraft.blocks,
    graph.blocks[block.address]? = none
  blocksDistinct : ((drafts.flatMap FunctionDraft.blocks).map Block.address).Nodup
  matchesLines : ∀ block ∈ drafts.flatMap FunctionDraft.blocks, MatchesLines block

/-! ### The check -/

variable {graph : Graph} {override : Bool}

theorem checkBlock_eq_ok_iff {taken next : Std.ExtTreeSet Address} {block : Block} :
    graph.checkBlock override taken block = .ok next ↔
      (MatchesLines block ∧ graph.blocks[block.address]? = none ∧ block.address ∉ taken) ∧
        taken.insert block.address = next := by
  unfold checkBlock MatchesLines
  split
  · rename_i mismatch
    rw [Block.hasLineAddresses_iff] at mismatch
    refine ⟨fun equal => (nomatch equal), fun ⟨⟨matched, _⟩, _⟩ => ?_⟩
    exact absurd (matched mismatch.1) mismatch.2
  rename_i matched
  rw [Block.hasLineAddresses_iff, not_and, Decidable.not_not] at matched
  split
  · rename_i used
    refine ⟨fun equal => (nomatch equal), fun ⟨⟨_, free, fresh⟩, _⟩ => ?_⟩
    rcases used with inGraph | inBatch
    · rw [(AddressMap.contains_eq_false_iff _ _).mpr free] at inGraph
      cases inGraph
    · exact absurd (Std.ExtTreeSet.mem_iff_contains.mpr inBatch) fresh
  · rename_i unused
    rw [not_or, Bool.not_eq_true, AddressMap.contains_eq_false_iff] at unused
    refine ⟨fun equal => ⟨⟨matched, unused.1, ?_⟩, Except.ok.inj equal⟩,
      fun ⟨_, equal⟩ => congrArg Except.ok equal⟩
    exact fun member => unused.2 (Std.ExtTreeSet.mem_iff_contains.mp member)

/-- The check of several blocks: all of them are fit, and no two have the same address. -/
theorem foldlM_checkBlock_eq_ok_iff {taken next : Std.ExtTreeSet Address} {blocks : List Block} :
    blocks.foldlM (graph.checkBlock override) taken = .ok next ↔
      (∀ block ∈ blocks, MatchesLines block ∧ graph.blocks[block.address]? = none ∧
        block.address ∉ taken) ∧ (blocks.map Block.address).Nodup ∧
        blocks.foldl (fun taken block => taken.insert block.address) taken = next := by
  induction blocks generalizing taken with
  | nil =>
    rw [List.foldlM_nil]
    refine ⟨fun equal => ⟨by simp, List.nodup_nil, Except.ok.inj equal⟩, fun ⟨_, _, equal⟩ => ?_⟩
    exact congrArg Except.ok equal
  | cons block rest inductionHypothesis =>
    rw [List.foldlM_cons, Outcome.bind_eq_ok_iff, List.map_cons, List.nodup_cons, List.foldl_cons,
      List.forall_mem_cons]
    have later (other : Block) : other.address ∉ taken.insert block.address ↔
        block.address ≠ other.address ∧ other.address ∉ taken := by
      rw [Std.ExtTreeSet.mem_insert, not_or, Std.compare_eq_iff_eq]
    constructor
    · rintro ⟨middle, first, others⟩
      obtain ⟨fit, rfl⟩ := checkBlock_eq_ok_iff.mp first
      obtain ⟨restFit, distinct, equal⟩ := inductionHypothesis.mp others
      refine ⟨⟨fit, fun other member => ?_⟩, ⟨fun again => ?_, distinct⟩, equal⟩
      · obtain ⟨matched, free, fresh⟩ := restFit other member
        exact ⟨matched, free, ((later other).mp fresh).2⟩
      · obtain ⟨other, member, same⟩ := List.mem_map.mp again
        exact ((later other).mp (restFit other member).2.2).1 same.symm
    · rintro ⟨⟨fit, restFit⟩, ⟨absent, distinct⟩, equal⟩
      refine ⟨_, checkBlock_eq_ok_iff.mpr ⟨fit, rfl⟩, inductionHypothesis.mpr
        ⟨fun other member => ?_, distinct, equal⟩⟩
      obtain ⟨matched, free, fresh⟩ := restFit other member
      refine ⟨matched, free, (later other).mpr ⟨fun same => absent ?_, fresh⟩⟩
      exact same ▸ List.mem_map_of_mem member

theorem mem_foldl_insert_address {taken : Std.ExtTreeSet Address} {blocks : List Block}
    {address : Address} :
    address ∈ blocks.foldl (fun taken block => taken.insert block.address) taken ↔
      address ∈ blocks.map Block.address ∨ address ∈ taken := by
  induction blocks generalizing taken with
  | nil => simp
  | cons block rest inductionHypothesis =>
    rw [List.foldl_cons, inductionHypothesis, Std.ExtTreeSet.mem_insert, Std.compare_eq_iff_eq,
      List.map_cons, List.mem_cons, or_left_comm, ← or_assoc, eq_comm]

theorem checkDraft_eq_ok_iff {taken next : Taken} {draft : FunctionDraft} {address : Address} :
    graph.checkDraft override taken draft = .ok (address, next) ↔
      draft.resolvedAddress? = some address ∧ graph.functions[address]? = none ∧
        address ∉ taken.functions ∧
        (∀ block ∈ draft.blocks, MatchesLines block ∧ graph.blocks[block.address]? = none ∧
          block.address ∉ taken.blocks) ∧ (draft.blocks.map Block.address).Nodup ∧
        Taken.mk (taken.functions.insert address)
          (draft.blocks.foldl (fun taken block => taken.insert block.address) taken.blocks) =
          next := by
  unfold checkDraft
  cases draft.resolvedAddress? with
  | none => exact ⟨fun equal => (nomatch equal), fun ⟨equal, _⟩ => (nomatch equal)⟩
  | some resolved =>
    dsimp only
    rw [Option.some.injEq]
    split
    · rename_i used
      refine ⟨fun equal => (nomatch equal), ?_⟩
      rintro ⟨rfl, free, fresh, _⟩
      rcases used with inGraph | inBatch
      · rw [(AddressMap.contains_eq_false_iff _ _).mpr free] at inGraph
        cases inGraph
      · exact absurd (Std.ExtTreeSet.mem_iff_contains.mpr inBatch) fresh
    · rename_i unused
      rw [not_or, Bool.not_eq_true, AddressMap.contains_eq_false_iff] at unused
      rw [Outcome.map_eq_ok_iff]
      simp only [Prod.mk.injEq, foldlM_checkBlock_eq_ok_iff]
      constructor
      · rintro ⟨blocks, ⟨fit, distinct, rfl⟩, rfl, rfl⟩
        exact ⟨rfl, unused.1, fun member => unused.2 (Std.ExtTreeSet.mem_iff_contains.mp member),
          fit, distinct, rfl⟩
      · rintro ⟨rfl, _, _, fit, distinct, rfl⟩
        exact ⟨_, ⟨fit, distinct, rfl⟩, rfl, rfl⟩

/-- A batch can be added if its first function and the others can, and they do not collide. -/
theorem admits_cons_iff {draft : FunctionDraft} {rest : List FunctionDraft} {address : Address}
    {later : List Address} :
    graph.Admits (draft :: rest) (address :: later) ↔
      (draft.resolvedAddress? = some address ∧ graph.functions[address]? = none ∧
        (∀ block ∈ draft.blocks, MatchesLines block ∧ graph.blocks[block.address]? = none) ∧
        (draft.blocks.map Block.address).Nodup) ∧ graph.Admits rest later ∧ address ∉ later ∧
        ∀ block ∈ rest.flatMap FunctionDraft.blocks,
          block.address ∉ draft.blocks.map Block.address := by
  constructor
  · rintro ⟨resolved, functionsFree, functionsDistinct, blocksFree, blocksDistinct, matched⟩
    rw [List.map_cons, List.map_cons, List.cons.injEq] at resolved
    rw [List.forall_mem_cons] at functionsFree
    rw [List.nodup_cons] at functionsDistinct
    rw [List.flatMap_cons, List.forall_mem_append] at blocksFree matched
    rw [List.flatMap_cons, List.map_append, List.nodup_append] at blocksDistinct
    refine ⟨⟨resolved.1, functionsFree.1,
      fun block member => ⟨matched.1 block member, blocksFree.1 block member⟩, blocksDistinct.1⟩,
      ⟨resolved.2, functionsFree.2, functionsDistinct.2, blocksFree.2, blocksDistinct.2.1,
        matched.2⟩, functionsDistinct.1, fun block member again => ?_⟩
    exact blocksDistinct.2.2 _ again _ (List.mem_map_of_mem member) rfl
  · rintro ⟨⟨resolved, free, fit, distinct⟩, admitted, fresh, blocksFresh⟩
    refine ⟨?_, List.forall_mem_cons.mpr ⟨free, admitted.functionsFree⟩,
      List.nodup_cons.mpr ⟨fresh, admitted.functionsDistinct⟩, ?_, ?_, ?_⟩
    · rw [List.map_cons, List.map_cons, resolved, admitted.resolved]
    · rw [List.flatMap_cons]
      exact List.forall_mem_append.mpr ⟨fun block member => (fit block member).2,
        admitted.blocksFree⟩
    · rw [List.flatMap_cons, List.map_append, List.nodup_append]
      refine ⟨distinct, admitted.blocksDistinct, ?_⟩
      rintro here member there restMember rfl
      obtain ⟨block, listed, rfl⟩ := List.mem_map.mp restMember
      exact blocksFresh block listed member
    · rw [List.flatMap_cons]
      exact List.forall_mem_append.mpr ⟨fun block member => (fit block member).1,
        admitted.matchesLines⟩

/-- The check of a batch succeeds exactly if the graph admits the batch and no address of it is
used up. -/
theorem checkBatch_eq_ok_iff {taken : Taken} {drafts : List FunctionDraft}
    {addresses : List Address} :
    graph.checkBatch override taken drafts = .ok addresses ↔
      graph.Admits drafts addresses ∧ (∀ address ∈ addresses, address ∉ taken.functions) ∧
        ∀ block ∈ drafts.flatMap FunctionDraft.blocks, block.address ∉ taken.blocks := by
  induction drafts generalizing taken addresses with
  | nil =>
    rw [checkBatch]
    constructor
    · intro equal
      cases equal
      exact ⟨⟨rfl, by simp, List.nodup_nil, by simp, List.nodup_nil, by simp⟩, by simp, by simp⟩
    · rintro ⟨admitted, _⟩
      rw [List.map_eq_nil_iff.mp admitted.resolved.symm]
  | cons draft rest inductionHypothesis =>
    have laterFunction (used : Std.ExtTreeSet Address) (first other : Address) :
        other ∉ used.insert first ↔ first ≠ other ∧ other ∉ used := by
      rw [Std.ExtTreeSet.mem_insert, not_or, Std.compare_eq_iff_eq]
    rw [checkBatch, Outcome.bind_eq_ok_iff]
    constructor
    · rintro ⟨⟨address, next⟩, first, others⟩
      obtain ⟨resolved, free, fresh, fit, distinct, rfl⟩ := checkDraft_eq_ok_iff.mp first
      obtain ⟨later, restSucceeds, equal⟩ := Outcome.bind_eq_ok_iff.mp others
      cases equal
      obtain ⟨admitted, functionsFresh, blocksFresh⟩ := inductionHypothesis.mp restSucceeds
      simp only [mem_foldl_insert_address, not_or] at blocksFresh
      simp only [laterFunction] at functionsFresh
      refine ⟨admits_cons_iff.mpr ⟨⟨resolved, free,
        fun block member => ⟨(fit block member).1, (fit block member).2.1⟩, distinct⟩, admitted,
        fun again => (functionsFresh address again).1 rfl,
        fun block member => (blocksFresh block member).1⟩, ?_, ?_⟩
      · exact List.forall_mem_cons.mpr ⟨fresh, fun other member => (functionsFresh other member).2⟩
      · rw [List.flatMap_cons]
        exact List.forall_mem_append.mpr ⟨fun block member => (fit block member).2.2,
          fun block member => (blocksFresh block member).2⟩
    · rintro ⟨admitted, functionsFresh, blocksFresh⟩
      cases addresses with
      | nil => cases admitted.resolved
      | cons address later =>
        obtain ⟨⟨resolved, free, fit, distinct⟩, restAdmitted, different, blocksDifferent⟩ :=
          admits_cons_iff.mp admitted
        rw [List.forall_mem_cons] at functionsFresh
        rw [List.flatMap_cons, List.forall_mem_append] at blocksFresh
        refine ⟨(address, _), checkDraft_eq_ok_iff.mpr ⟨resolved, free, functionsFresh.1,
          fun block member => ⟨(fit block member).1, (fit block member).2,
            blocksFresh.1 block member⟩, distinct, rfl⟩, Outcome.bind_eq_ok_iff.mpr
          ⟨later, inductionHypothesis.mpr ⟨restAdmitted, fun other member => ?_,
          fun block member => ?_⟩, rfl⟩⟩
        · refine (laterFunction _ _ _).mpr ⟨?_, functionsFresh.2 other member⟩
          rintro rfl
          exact different member
        · rw [mem_foldl_insert_address, not_or]
          exact ⟨blocksDifferent block member, blocksFresh.2 block member⟩

/-- A batch is added exactly if the graph admits it, whatever is said about overriding. -/
theorem addFunctions_eq_ok_iff {drafts : List FunctionDraft} {next : Graph} :
    graph.addFunctions drafts override = .ok next ↔ ∃ addresses, graph.Admits drafts addresses ∧
      ((addresses.zip drafts).foldl (fun graph entry => graph.place entry.1 entry.2) graph).wire =
        next := by
  rw [addFunctions, Outcome.bind_eq_ok_iff]
  refine exists_congr fun addresses => ?_
  rw [checkBatch_eq_ok_iff]
  constructor
  · rintro ⟨⟨admitted, _⟩, equal⟩
    exact ⟨admitted, Except.ok.inj equal⟩
  · rintro ⟨admitted, rfl⟩
    exact ⟨⟨admitted, fun _ _ => Std.ExtTreeSet.not_mem_empty,
      fun _ _ => Std.ExtTreeSet.not_mem_empty⟩, rfl⟩

/-! ### The index -/

instance (block : Block) (address : Address) : Decidable (block.Holds address) :=
  inferInstanceAs (Decidable (_ ∨ _))

theorem getElem?_foldl_insert_home (lineAddresses : List Address) (home : Address)
    (index : AddressMap Address) (address : Address) :
    (lineAddresses.foldl (fun table line => table.insert line home) index)[address]? =
      if address ∈ lineAddresses then some home else index[address]? := by
  induction lineAddresses generalizing index with
  | nil => simp
  | cons line rest inductionHypothesis =>
    rw [List.foldl_cons, inductionHypothesis, AddressMap.getElem?_insert]
    by_cases later : address ∈ rest
    · rw [if_pos later, if_pos (List.mem_cons_of_mem _ later)]
    · simp only [later, List.mem_cons, or_false, eq_comm, if_false]

/-- An indexed block takes over all addresses that it holds. -/
theorem getElem?_indexBlock (index : AddressMap Address) (block : Block) (address : Address) :
    (indexBlock index block)[address]? =
      if block.Holds address then some block.address else index[address]? := by
  rw [indexBlock, AddressMap.getElem?_insert, getElem?_foldl_insert_home]
  by_cases own : block.address = address
  · have held : block.Holds address := Or.inl own.symm
    rw [if_pos own, if_pos held]
  · have same : block.Holds address ↔ address ∈ block.lineAddresses :=
      or_iff_right fun equal => own equal.symm
    rw [if_neg own]
    simp only [same]

theorem holds_of_getElem?_foldl_indexBlock {blocks : List Block} {index : AddressMap Address}
    {address home : Address} (found : (blocks.foldl indexBlock index)[address]? = some home) :
    (∃ block ∈ blocks, block.address = home ∧ block.Holds address) ∨
      index[address]? = some home := by
  induction blocks generalizing index with
  | nil => exact Or.inr found
  | cons block rest inductionHypothesis =>
    rcases inductionHypothesis found with ⟨other, member, held⟩ | earlier
    · exact Or.inl ⟨other, List.mem_cons_of_mem _ member, held⟩
    · rw [getElem?_indexBlock] at earlier
      split at earlier
      · rename_i held
        exact Or.inl ⟨block, List.mem_cons_self, Option.some.inj earlier, held⟩
      · exact Or.inr earlier

theorem exists_getElem?_foldl_indexBlock {blocks : List Block} {index : AddressMap Address}
    {address : Address}
    (held : (∃ block ∈ blocks, block.Holds address) ∨ ∃ home, index[address]? = some home) :
    ∃ home, (blocks.foldl indexBlock index)[address]? = some home := by
  induction blocks generalizing index with
  | nil => exact held.resolve_left fun ⟨_, member, _⟩ => List.not_mem_nil member
  | cons block rest inductionHypothesis =>
    refine inductionHypothesis ?_
    by_cases here : block.Holds address
    · exact Or.inr ⟨block.address, by rw [getElem?_indexBlock, if_pos here]⟩
    · rw [getElem?_indexBlock, if_neg here]
      refine held.imp_left ?_
      rintro ⟨other, member, there⟩
      rcases List.mem_cons.mp member with rfl | later
      · exact absurd there here
      · exact ⟨other, later, there⟩

/-- The index of a list of blocks, put into an empty table. -/
theorem indexedBy_indexOf (laidKeys : ∀ {address : Address} {block : Block},
    graph.blocks[address]? = some block → block.address = address) :
    graph.IndexedBy (indexOf graph.blockList) := by
  refine ⟨fun found => ?_, fun {home address block} found held => ?_⟩
  · rcases holds_of_getElem?_foldl_indexBlock found with ⟨block, member, rfl, held⟩ | none
    · obtain ⟨home, there⟩ := (AddressMap.mem_contents _ _).mp member
      exact ⟨block, by rwa [laidKeys there], held⟩
    · rw [Std.ExtTreeMap.getElem?_empty] at none
      cases none
  · exact exists_getElem?_foldl_indexBlock
      (Or.inl ⟨block, AddressMap.mem_contents_of_getElem? found, held⟩)

/-! ### Placing -/

/-- A function is placed in three tables. -/
theorem place_eq (graph : Graph) (address : Address) (draft : FunctionDraft) :
    graph.place address draft =
      { graph with
        functions := graph.functions.insert address (draft.placed address)
        blocks := (draft.adopted address).foldl
          (fun table block => table.insert block.address block) graph.blocks
        index := graph.index.map fun index => (draft.adopted address).foldl indexBlock index } := by
  have function : (⟨address, draft.name, draft.isExternal, draft.metadata,
      (draft.adopted address).map Block.address⟩ : Function) = draft.placed address := by
    rw [FunctionDraft.map_address_adopted]
    rfl
  rw [← function]
  rfl

/-- The graph after functions were placed one after another: the tables of functions and blocks
with those of the batch put in, and the index with its blocks. -/
theorem foldl_place (graph : Graph) (entries : List (Address × FunctionDraft)) :
    entries.foldl (fun graph entry => graph.place entry.1 entry.2) graph =
      { graph with
        functions := (entries.map fun entry => entry.2.placed entry.1).foldl
          (fun table function => table.insert function.address function) graph.functions
        blocks := (entries.flatMap fun entry => entry.2.adopted entry.1).foldl
          (fun table block => table.insert block.address block) graph.blocks
        index := graph.index.map fun index =>
          (entries.flatMap fun entry => entry.2.adopted entry.1).foldl indexBlock index } := by
  induction entries generalizing graph with
  | nil =>
    obtain ⟨functions, blocks, normalizer, tokens, metadata, index⟩ := graph
    cases index <;> rfl
  | cons entry rest inductionHypothesis =>
    rw [List.foldl_cons, inductionHypothesis, place_eq, List.map_cons, List.flatMap_cons,
      List.foldl_cons, List.foldl_append]
    simp only [Option.map_map, Function.comp_def, List.foldl_append]
    rfl

section Placed

variable {drafts : List FunctionDraft} {addresses : List Address}

theorem Admits.length_eq (admitted : graph.Admits drafts addresses) :
    addresses.length = drafts.length := by
  have lengths := congrArg List.length admitted.resolved
  rwa [List.length_map, List.length_map, eq_comm] at lengths

/-- The functions of a batch, as the graph will hold them. -/
def placedFunctions (addresses : List Address) (drafts : List FunctionDraft) : List Function :=
  (addresses.zip drafts).map fun entry => entry.2.placed entry.1

/-- The blocks of a batch, as the graph will hold them. -/
def adoptedBlocks (addresses : List Address) (drafts : List FunctionDraft) : List Block :=
  (addresses.zip drafts).flatMap fun entry => entry.2.adopted entry.1

theorem Admits.map_address_placedFunctions (admitted : graph.Admits drafts addresses) :
    (placedFunctions addresses drafts).map Function.address = addresses := by
  rw [placedFunctions, List.map_map]
  exact List.map_fst_zip (Nat.le_of_eq admitted.length_eq)

theorem Admits.map_address_adoptedBlocks (admitted : graph.Admits drafts addresses) :
    (adoptedBlocks addresses drafts).map Block.address =
      (drafts.flatMap FunctionDraft.blocks).map Block.address := by
  have second : (addresses.zip drafts).map Prod.snd = drafts :=
    List.map_snd_zip (Nat.le_of_eq admitted.length_eq.symm)
  rw [adoptedBlocks, List.map_flatMap, List.map_flatMap]
  simp only [FunctionDraft.map_address_adopted]
  conv_rhs => rw [← second, List.flatMap_map]

theorem mem_adoptedBlocks {block : Block} :
    block ∈ adoptedBlocks addresses drafts ↔ ∃ address draft, (address, draft) ∈
      addresses.zip drafts ∧ ∃ own ∈ draft.blocks, { own with parent := some address } = block := by
  simp only [adoptedBlocks, List.mem_flatMap, FunctionDraft.adopted, List.mem_map, Prod.exists]

/-- The graph after a batch was placed, without wiring. -/
def placeAll (graph : Graph) (addresses : List Address) (drafts : List FunctionDraft) : Graph :=
  (addresses.zip drafts).foldl (fun graph entry => graph.place entry.1 entry.2) graph

theorem placeAll_eq : graph.placeAll addresses drafts =
    { graph with
      functions := (placedFunctions addresses drafts).foldl
        (fun table function => table.insert function.address function) graph.functions
      blocks := (adoptedBlocks addresses drafts).foldl
        (fun table block => table.insert block.address block) graph.blocks
      index := graph.index.map fun index =>
        (adoptedBlocks addresses drafts).foldl indexBlock index } :=
  foldl_place graph (addresses.zip drafts)

/-- A function is found in the graph after a batch if it is one of the batch, or if it was there
and its address is not one of the batch. -/
theorem Admits.getElem?_functions (admitted : graph.Admits drafts addresses) {address : Address}
    {function : Function} :
    (graph.placeAll addresses drafts).functions[address]? = some function ↔
      (function ∈ placedFunctions addresses drafts ∧ function.address = address) ∨
        (address ∉ addresses ∧ graph.functions[address]? = some function) := by
  have keys := admitted.map_address_placedFunctions
  rw [placeAll_eq]
  dsimp only
  rw [AddressMap.getElem?_foldl_insert Function.address (keys.symm ▸ admitted.functionsDistinct),
    keys]

/-- A block is found in the graph after a batch if it is one of the batch, or if it was there and
its address is not one of the batch. -/
theorem Admits.getElem?_blocks (admitted : graph.Admits drafts addresses) {address : Address}
    {block : Block} :
    (graph.placeAll addresses drafts).blocks[address]? = some block ↔
      (block ∈ adoptedBlocks addresses drafts ∧ block.address = address) ∨
        (address ∉ (drafts.flatMap FunctionDraft.blocks).map Block.address ∧
          graph.blocks[address]? = some block) := by
  have keys := admitted.map_address_adoptedBlocks
  rw [placeAll_eq]
  dsimp only
  rw [AddressMap.getElem?_foldl_insert Block.address (keys.symm ▸ admitted.blocksDistinct), keys]

/-- The functions of a batch join those of the graph. -/
theorem Admits.functionList_perm (admitted : graph.Admits drafts addresses) :
    (graph.placeAll addresses drafts).functionList.Perm
      (graph.functionList ++ placedFunctions addresses drafts) := by
  have keys := admitted.map_address_placedFunctions
  rw [placeAll_eq]
  refine AddressMap.contents_foldl_insert_perm Function.address
    (keys.symm ▸ admitted.functionsDistinct) fun function placed => ?_
  exact admitted.functionsFree _ (keys ▸ List.mem_map_of_mem placed)

/-- The blocks of a batch join those of the graph. -/
theorem Admits.blockList_perm (admitted : graph.Admits drafts addresses) :
    (graph.placeAll addresses drafts).blockList.Perm
      (graph.blockList ++ adoptedBlocks addresses drafts) := by
  have keys := admitted.map_address_adoptedBlocks
  rw [placeAll_eq]
  refine AddressMap.contents_foldl_insert_perm Block.address
    (keys.symm ▸ admitted.blocksDistinct) fun block adopted => ?_
  obtain ⟨own, member, same⟩ := List.mem_map.mp (keys ▸ List.mem_map_of_mem adopted)
  rw [← same]
  exact admitted.blocksFree own member

theorem Admits.functions_kept (admitted : graph.Admits drafts addresses) {address : Address}
    {function : Function} (found : graph.functions[address]? = some function) :
    (graph.placeAll addresses drafts).functions[address]? = some function := by
  refine admitted.getElem?_functions.mpr (Or.inr ⟨fun used => ?_, found⟩)
  rw [admitted.functionsFree address used] at found
  cases found

theorem Admits.blocks_kept (admitted : graph.Admits drafts addresses) {address : Address}
    {block : Block} (found : graph.blocks[address]? = some block) :
    (graph.placeAll addresses drafts).blocks[address]? = some block := by
  refine admitted.getElem?_blocks.mpr (Or.inr ⟨fun used => ?_, found⟩)
  obtain ⟨own, member, rfl⟩ := List.mem_map.mp used
  rw [admitted.blocksFree own member] at found
  cases found

theorem mem_blocks_of_mem_zip {address : Address} {draft : FunctionDraft}
    (entry : (address, draft) ∈ addresses.zip drafts) {block : Block} (own : block ∈ draft.blocks) :
    block ∈ drafts.flatMap FunctionDraft.blocks :=
  List.mem_flatMap.mpr ⟨draft, (List.of_mem_zip entry).2, own⟩

/-- Every block of a batch is adopted by some function. -/
theorem Admits.exists_adopted (admitted : graph.Admits drafts addresses) {own : Block}
    (member : own ∈ drafts.flatMap FunctionDraft.blocks) :
    ∃ home, { own with parent := some home } ∈ adoptedBlocks addresses drafts := by
  obtain ⟨draft, listed, ownMember⟩ := List.mem_flatMap.mp member
  rw [← List.map_snd_zip (Nat.le_of_eq admitted.length_eq.symm)] at listed
  obtain ⟨⟨home, _⟩, entry, rfl⟩ := List.mem_map.mp listed
  exact ⟨home, mem_adoptedBlocks.mpr ⟨home, _, entry, own, ownMember, rfl⟩⟩

/-- An adopted block belongs to its function, which lists it once. -/
theorem Admits.owner_of_adopted (admitted : graph.Admits drafts addresses) {block : Block}
    (adopted : block ∈ adoptedBlocks addresses drafts) : ∃ home function,
      block.parent = some home ∧
        (graph.placeAll addresses drafts).functions[home]? = some function ∧
        function.blocks.count block.address = 1 := by
  obtain ⟨home, draft, entry, own, member, rfl⟩ := mem_adoptedBlocks.mp adopted
  refine ⟨home, draft.placed home, rfl, admitted.getElem?_functions.mpr (Or.inl
    ⟨List.mem_map.mpr ⟨_, entry, rfl⟩, rfl⟩), List.count_eq_one_of_mem ?_
    (List.mem_map.mpr ⟨own, member, rfl⟩)⟩
  have distinct := admitted.blocksDistinct
  rw [List.map_flatMap, List.nodup_flatMap] at distinct
  exact distinct.1 draft (List.of_mem_zip entry).2

/-- The index follows a batch. -/
theorem Admits.indexedBy_placeAll (admitted : graph.Admits drafts addresses)
    {index : AddressMap Address} (indexed : graph.IndexedBy index) :
    (graph.placeAll addresses drafts).IndexedBy
      ((adoptedBlocks addresses drafts).foldl indexBlock index) := by
  refine ⟨fun found => ?_, fun found held => exists_getElem?_foldl_indexBlock ?_⟩
  · rcases holds_of_getElem?_foldl_indexBlock found with ⟨block, adopted, same, held⟩ | old
    · exact ⟨block, admitted.getElem?_blocks.mpr (Or.inl ⟨adopted, same⟩), held⟩
    · obtain ⟨block, blockFound, held⟩ := indexed.holds old
      exact ⟨block, admitted.blocks_kept blockFound, held⟩
  · rcases admitted.getElem?_blocks.mp found with ⟨adopted, _⟩ | ⟨_, old⟩
    · exact Or.inl ⟨_, adopted, held⟩
    · exact Or.inr (indexed.finds old held)

/-- Placing a batch of blocks that list their own edges keeps a graph laid out. -/
theorem Laid.placeAll (laid : graph.Laid) (admitted : graph.Admits drafts addresses)
    (own : ∀ draft ∈ drafts, ∀ block ∈ draft.blocks, block.ListsOwnEdges) :
    (graph.placeAll addresses drafts).Laid := by
  have adoptedOwn {block : Block} (adopted : block ∈ adoptedBlocks addresses drafts) :
      block.ListsOwnEdges ∧ MatchesLines block := by
    obtain ⟨home, draft, entry, bare, member, rfl⟩ := mem_adoptedBlocks.mp adopted
    have edges := own draft (List.of_mem_zip entry).2 bare member
    exact ⟨⟨edges.nodupOut, edges.leaves, edges.nodupIn, edges.enters⟩,
      admitted.matchesLines bare (mem_blocks_of_mem_zip entry member)⟩
  refine ⟨fun found => ?_, fun found => ?_, fun found => ?_, fun found address listed => ?_,
    fun found => ?_, fun found => ?_, fun built => ?_⟩
  · rcases admitted.getElem?_blocks.mp found with ⟨_, same⟩ | ⟨_, old⟩
    · exact same
    · exact laid.blockKey old
  · rcases admitted.getElem?_functions.mp found with ⟨_, same⟩ | ⟨_, old⟩
    · exact same
    · exact laid.functionKey old
  · rcases admitted.getElem?_blocks.mp found with ⟨adopted, rfl⟩ | ⟨_, old⟩
    · exact admitted.owner_of_adopted adopted
    · obtain ⟨home, function, parent, owning, once⟩ := laid.owner old
      exact ⟨home, function, parent, admitted.functions_kept owning, once⟩
  · rcases admitted.getElem?_functions.mp found with ⟨placed, same⟩ | ⟨_, old⟩
    · obtain ⟨⟨home, draft⟩, entry, rfl⟩ := List.mem_map.mp placed
      obtain ⟨bare, member, rfl⟩ := List.mem_map.mp listed
      refine ⟨{ bare with parent := some home }, admitted.getElem?_blocks.mpr (Or.inl
        ⟨mem_adoptedBlocks.mpr ⟨home, draft, entry, bare, member, rfl⟩, rfl⟩), ?_⟩
      rw [← same]
      rfl
    · obtain ⟨block, blockFound, parent⟩ := laid.member old address listed
      exact ⟨block, admitted.blocks_kept blockFound, parent⟩
  · rcases admitted.getElem?_blocks.mp found with ⟨adopted, _⟩ | ⟨_, old⟩
    · exact (adoptedOwn adopted).1
    · exact laid.ownEdges old
  · rcases admitted.getElem?_blocks.mp found with ⟨adopted, _⟩ | ⟨_, old⟩
    · exact (adoptedOwn adopted).2
    · exact laid.lineAddresses old
  · rw [placeAll_eq] at built
    obtain ⟨before, beforeBuilt, rfl⟩ := Option.map_eq_some_iff.mp built
    exact admitted.indexedBy_placeAll (laid.indexed beforeBuilt)

end Placed

/-- A graph stays sound when a batch is added whose blocks list their own edges. -/
theorem Laid.addFunctions {drafts : List FunctionDraft} {next : Graph} (laid : graph.Laid)
    (own : ∀ draft ∈ drafts, ∀ block ∈ draft.blocks, block.ListsOwnEdges)
    (added : graph.addFunctions drafts override = .ok next) : next.Sound := by
  obtain ⟨addresses, admitted, rfl⟩ := addFunctions_eq_ok_iff.mp added
  exact (laid.placeAll admitted own).wire

end Graph

end FlowGraph
