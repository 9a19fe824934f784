/-
This file follows the functions of a compact graph through its expansion. Every
function receives the blocks of its own in the order of their ranks; its address
is that of its entry block, and whether it is external is known from the flags
of its blocks. So the graph that comes out is that of one batch, which can be
said in terms of the graph that was compacted.
-/

import FlowGraph.Proofs.Faithful
import FlowGraph.Proofs.Rebuilt

namespace FlowGraph

/-! ### Receiving blocks -/

namespace Compact

/-- A function after it received a block. -/
def receive (draft : FunctionDraft) (flags : BlockFlags) (block : Block) : FunctionDraft :=
  { draft with
    isExternal := draft.isExternal || flags.has .external
    address := if flags.has .entry then some block.address else draft.address
    blocks := draft.blocks ++ [block] }

theorem foldl_receive (flags : Block → BlockFlags) (rebuild : Block → Block) (blocks : List Block)
    (draft : FunctionDraft) :
    blocks.foldl (fun draft block => receive draft (flags block) (rebuild block)) draft =
      { draft with
        isExternal := draft.isExternal || blocks.any fun block => (flags block).has .external
        address := blocks.foldl (fun address block =>
          if (flags block).has .entry then some (rebuild block).address else address) draft.address
        blocks := draft.blocks ++ blocks.map rebuild } := by
  induction blocks generalizing draft with
  | nil => simp
  | cons block rest inductionHypothesis =>
    rw [List.foldl_cons, inductionHypothesis]
    simp only [receive, List.any_cons, Bool.or_assoc, List.foldl_cons, List.append_assoc,
      List.singleton_append, List.map_cons]

/-- The last of some addresses that are all the same, if there are any. -/
theorem foldl_address {blocks : List Block} {marked : Block → Bool} {place : Block → Address}
    {address : Address} (same : ∀ block ∈ blocks, marked block = true → place block = address)
    (before : Option Address) :
    blocks.foldl (fun address block => if marked block then some (place block) else address)
        before = if blocks.any marked then some address else before := by
  induction blocks generalizing before with
  | nil => rfl
  | cons block rest inductionHypothesis =>
    rw [List.foldl_cons,
      inductionHypothesis fun other member => same other (List.mem_cons_of_mem _ member),
      List.any_cons]
    cases here : marked block with
    | false => rfl
    | true =>
      rw [same block List.mem_cons_self here]
      cases rest.any marked <;> rfl

/-- Changes to the places of a list that several items ask for. -/
theorem getElem?_foldl_modify {Item Content : Type} (key : Item → Nat)
    (change : Item → Content → Content) (items : List Item) (contents : List Content)
    (number : Nat) :
    (items.foldl (fun contents item =>
        contents.modify (key item) (change item)) contents)[number]? =
      contents[number]?.map fun content =>
        (items.filter fun item => key item == number).foldl
          (fun content item => change item content) content := by
  induction items generalizing contents with
  | nil => exact Option.map_id'.symm
  | cons item rest inductionHypothesis =>
    rw [List.foldl_cons, inductionHypothesis, List.getElem?_modify, List.filter_cons]
    by_cases here : key item = number
    · rw [if_pos (beq_iff_eq.mpr here)]
      simp only [here, if_true, Option.map_eq_map, Option.map_map]
      rfl
    · rw [if_neg (by rwa [beq_iff_eq])]
      simp only [here, if_false, Option.map_eq_map, Option.map_id']

end Compact

/-! ### Functions before they are named -/

namespace Graph

variable {graph : Graph} {keepAddresses : Bool} {function : Function} {block : Block}

/-- The blocks of a function by its rank, in the order of their addresses. -/
def ownBlocks (graph : Graph) (number : Nat) : List Block :=
  graph.blockList.filter fun block => graph.parentRank block == number

/-- A graph without functions and blocks that is otherwise like another one. -/
def bare (graph : Graph) : Graph :=
  { withMetadata graph.metadata with normalizer := graph.normalizer }

/-- A function after it received its rebuilt blocks, without a name. -/
def bareDraft (graph : Graph) (keepAddresses : Bool) (function : Function) : FunctionDraft :=
  let own := graph.ownBlocks (graph.functions.rank function.address)
  { address := if own.any Block.isEntry then
      some (graph.movedAddress keepAddresses function.address) else none
    name := none
    isExternal := function.isExternal && !own.isEmpty
    metadata := function.metadata
    blocks := own.map (graph.rebuiltBlock keepAddresses) }

theorem Laid.mem_ownBlocks (laid : graph.Laid)
    (found : graph.functions[function.address]? = some function) :
    block ∈ graph.ownBlocks (graph.functions.rank function.address) ↔
      block ∈ graph.blockList ∧ block.parent = some function.address := by
  rw [ownBlocks, List.mem_filter, beq_iff_eq]
  exact and_congr_right fun listed => laid.parentRank_eq_iff listed found

end Graph

namespace Compact

variable {pool current : Pool} {graph : Graph} {store : TokenStore} {keepAddresses : Bool}

/-- The functions before they receive blocks. -/
def metadataDrafts (graph : Graph) : List FunctionDraft :=
  graph.functionList.map fun function => { FunctionDraft.empty with metadata := function.metadata }

theorem bareDrafts_columnsOf (held : graph.functionList.length ≤ greatestDraftCount) :
    (columnsOf pool graph store keepAddresses).bareDrafts
        (graph.functionList.map Function.metadata) = .ok (metadataDrafts graph) := by
  have whole : (graph.functionList.map Function.metadata).take graph.functionList.length =
      graph.functionList.map Function.metadata := List.take_of_length_le (by rw [List.length_map])
  rw [bareDrafts, functionCount_columnsOf, whole, List.length_map, if_pos held, Nat.sub_self,
    List.replicate_zero, List.append_nil, List.map_map]
  rfl

/-- A function is marked as external by its blocks, if it has any. -/
theorem any_external_ownBlocks (laid : graph.Laid) {function : Function}
    (found : graph.functions[function.address]? = some function) :
    ((graph.ownBlocks (graph.functions.rank function.address)).any fun block =>
        (graph.plainRow keepAddresses block).flags.has .external) =
      (function.isExternal &&
        !(graph.ownBlocks (graph.functions.rank function.address)).isEmpty) := by
  have external (block : Block)
      (member : block ∈ graph.ownBlocks (graph.functions.rank function.address)) :
      (graph.plainRow keepAddresses block).flags.has .external = function.isExternal := by
    rw [has_external_eq_inExternal]
    simp only [BlockFlags.inExternal, ((laid.mem_ownBlocks found).mp member).2, Option.bind_some,
      found]
  rw [Bool.eq_iff_iff, List.any_eq_true, Bool.and_eq_true, Bool.not_eq_true',
    List.isEmpty_eq_false_iff]
  constructor
  · rintro ⟨block, member, flagged⟩
    exact ⟨(external block member).symm.trans flagged, List.ne_nil_of_mem member⟩
  · rintro ⟨isExternal, some_block⟩
    obtain ⟨block, member⟩ := List.exists_mem_of_ne_nil _ some_block
    exact ⟨block, member, (external block member).trans isExternal⟩

/-- What a function has after all blocks were given away. -/
theorem foldl_receive_ownBlocks (laid : graph.Laid) {function : Function}
    (found : graph.functions[function.address]? = some function) :
    (graph.ownBlocks (graph.functions.rank function.address)).foldl
        (fun draft block => receive draft (graph.plainRow keepAddresses block).flags
          (graph.rebuiltBlock keepAddresses block))
        { FunctionDraft.empty with metadata := function.metadata } =
      graph.bareDraft keepAddresses function := by
  rw [foldl_receive, any_external_ownBlocks laid found]
  simp only [has_entry_eq_isEntry, FunctionDraft.empty, Bool.false_or, List.nil_append,
    Graph.bareDraft]
  rw [foldl_address]
  intro block member isEntry
  have own := ((laid.mem_ownBlocks found).mp member).2
  rw [beq_iff_eq.mp isEntry, Option.some.injEq] at own
  rw [← own]
  rfl

theorem rebuildInto_columnsOf (fits : Fits pool graph store keepAddresses)
    (known : (columnsOf pool graph store keepAddresses).tokens.contents current =
      tokensAfter pool graph store)
    {number : Nat} {block : Block} (found : graph.blockList[number]? = some block)
    {drafts : List FunctionDraft} (complete : drafts.length = graph.functionList.length) :
    (columnsOf pool graph store keepAddresses).rebuildInto current
        (graph.blocks.addresses.map (graph.movedAddress keepAddresses)) drafts
        (block.metadata, number) =
      .ok (giveBlock drafts (graph.parentRank block) (graph.plainRow keepAddresses block).flags
        (graph.rebuiltBlock keepAddresses block)) := by
  have inside := fits.laid.parentRank_lt (List.mem_of_getElem? found)
  rw [← complete] at inside
  unfold rebuildInto
  refine Outcome.bind_eq_ok_iff.mpr
    ⟨_, rebuiltBlock_columnsOf fits known found,
      Outcome.bind_eq_ok_iff.mpr ⟨_, blockFlags_columnsOf found,
        Outcome.bind_eq_ok_iff.mpr ⟨_, blockFunction_columnsOf fits.laid fits.sized found, ?_⟩⟩⟩
  rw [if_pos inside]
  rfl

/-- What the functions have after all blocks were given to them in turn. -/
theorem foldl_giveBlock_metadataDrafts (laid : graph.Laid) (keepAddresses : Bool) :
    graph.blockList.foldl (fun drafts block => giveBlock drafts (graph.parentRank block)
        (graph.plainRow keepAddresses block).flags (graph.rebuiltBlock keepAddresses block))
        (metadataDrafts graph) =
      graph.functionList.map (graph.bareDraft keepAddresses) := by
  have given : graph.blockList.foldl (fun drafts block => giveBlock drafts (graph.parentRank block)
        (graph.plainRow keepAddresses block).flags (graph.rebuiltBlock keepAddresses block))
        (metadataDrafts graph) =
      graph.blockList.foldl (fun drafts block => drafts.modify (graph.parentRank block) fun draft =>
        receive draft (graph.plainRow keepAddresses block).flags
          (graph.rebuiltBlock keepAddresses block))
        (metadataDrafts graph) := rfl
  refine given.trans (List.ext_getElem? fun number => ?_)
  rw [getElem?_foldl_modify, metadataDrafts, List.getElem?_map, List.getElem?_map]
  cases found : graph.functionList[number]? with
  | none => rfl
  | some function =>
    obtain ⟨home, there, rank⟩ := AddressMap.getElem?_contents_eq_some_iff.mp found
    obtain rfl := laid.functionKey there
    rw [← rank]
    exact congrArg some (foldl_receive_ownBlocks laid there)

/-- All blocks are given to their functions. -/
theorem foldlM_rebuildInto_columnsOf (fits : Fits pool graph store keepAddresses)
    (known : (columnsOf pool graph store keepAddresses).tokens.contents current =
      tokensAfter pool graph store) :
    (graph.blockList.map Block.metadata).zipIdx.foldlM
        ((columnsOf pool graph store keepAddresses).rebuildInto current
          (graph.blocks.addresses.map (graph.movedAddress keepAddresses)))
        (metadataDrafts graph) =
      .ok (graph.functionList.map (graph.bareDraft keepAddresses)) := by
  have run : graph.blockList.zipIdx.foldlM (fun drafts (entry : Block × Nat) =>
      (columnsOf pool graph store keepAddresses).rebuildInto current
        (graph.blocks.addresses.map (graph.movedAddress keepAddresses)) drafts
        (entry.1.metadata, entry.2)) (metadataDrafts graph) =
      .ok (graph.blockList.zipIdx.foldl (fun drafts (entry : Block × Nat) =>
        giveBlock drafts (graph.parentRank entry.1) (graph.plainRow keepAddresses entry.1).flags
          (graph.rebuiltBlock keepAddresses entry.1))
        (metadataDrafts graph)) := by
    refine Outcome.foldlM_eq_ok (fun drafts => drafts.length = graph.functionList.length)
      (fun entry member drafts complete => ⟨?_, ?_⟩) ?_
    · exact rebuildInto_columnsOf fits known (List.mem_zipIdx_iff_getElem?.mp member) complete
    · rw [← complete]
      exact List.length_modify ..
    · exact List.length_map ..
  have given := foldl_giveBlock_metadataDrafts fits.laid keepAddresses
  rw [← List.zipIdx_map_fst 0 graph.blockList, List.foldl_map] at given
  rw [List.zipIdx_map, List.foldlM_map]
  exact run.trans (congrArg Except.ok given)

/-- The functions of a graph under their names in a compact graph. -/
def namedDrafts (graph : Graph) (keepAddresses : Bool) : List FunctionDraft :=
  ((namesOf graph.functionList).zip (graph.functionList.map (graph.bareDraft keepAddresses))
    ).filterMap fun entry : String × FunctionDraft => namedDraft? entry.1 entry.2

/-- A compact graph is expanded by adding one batch of functions to an empty graph. -/
theorem toGraph_columnsOf (fits : Fits pool graph store keepAddresses)
    (held : (columnsOf pool graph store keepAddresses).MemorySized)
    (known : (columnsOf pool graph store keepAddresses).tokens.contents current =
      tokensAfter pool graph store) :
    (columnsOf pool graph store keepAddresses).toGraph current =
      (graph.bare.addFunctions (namedDrafts graph keepAddresses) false).mapError .graph := by
  have functions := held.functionDrafts
  have blocks := held.blockTables
  rw [functionCount_columnsOf] at functions
  rw [blockCount_columnsOf] at blocks
  have whole : (graph.blockList.map Block.metadata).take graph.blockList.length =
      graph.blockList.map Block.metadata := List.take_of_length_le (by rw [List.length_map])
  have functionTables : (graph.functionList.map Function.metadata).length ≤
      RunLength.greatestCount := by
    rw [List.length_map]
    exact Nat.le_trans functions (by decide)
  have names : (columnsOf pool graph store keepAddresses).functionNames =
      namesOf graph.functionList := functionNames_eq rfl
  have drafts := foldlM_rebuildInto_columnsOf fits known
  unfold toGraph
  rw [rebuiltAddresses_columnsOf fits.laid fits.signed, functionMetadata_columnsOf,
    RunLength.decode_encode functionTables, blockMetadata_columnsOf,
    RunLength.decode_encode (by rwa [List.length_map]), blockCount_columnsOf, names]
  dsimp only [bind, Except.bind, Except.mapError]
  rw [bareDrafts_columnsOf functions]
  dsimp only
  rw [whole, drafts]
  rfl

end Compact

end FlowGraph
