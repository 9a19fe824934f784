/-
This file says what a graph that was read from an exchange form has of it.
Functions, records and edges all come through, or reading fails: an edge is
listed on a block or refused, a function takes the blocks it names out of the
table, and a block that is left over is refused. Only nodes can get lost. They
are put into the table one after another, so of nodes with one address the last
counts, and nothing looks for the others.
-/

import FlowGraph.Proofs.Exchanged
import FlowGraph.Proofs.Incremental
import Mathlib.Data.List.Induction

namespace FlowGraph

theorem EdgeKind.name_of_ofName? {name : String} {kind : EdgeKind}
    (named : ofName? name = some kind) : kind.name = name := by
  unfold ofName? at named
  split at named
  · rename_i same
    cases named
    exact same.symm
  · split at named
    · rename_i same
      cases named
      exact same.symm
    · cases named

namespace Exchange

/-! ### Nodes -/

/-- The node that counts at an address: of those that have it, the last. -/
def nodeAt? (exchange : Exchange) (address : Address) : Option ExchangeNode :=
  exchange.nodes.reverse.find? fun node => node.address == address

/-- The table of blocks that nodes are put into. -/
def tableOf (nodes : List ExchangeNode) : AddressMap Block :=
  nodes.foldl (fun table node => table.insert node.address node.toBlock) ∅

theorem getElem?_tableOf (nodes : List ExchangeNode) (address : Address) :
    (tableOf nodes)[address]? =
      (nodes.reverse.find? fun node => node.address == address).map ExchangeNode.toBlock := by
  induction nodes using List.reverseRecOn with
  | nil => exact Std.ExtTreeMap.getElem?_empty
  | append_singleton before node inductionHypothesis =>
    have last : tableOf (before ++ [node]) = (tableOf before).insert node.address node.toBlock :=
      List.foldl_concat ..
    rw [last, AddressMap.getElem?_insert, inductionHypothesis, List.reverse_concat, List.find?_cons]
    by_cases here : node.address = address
    · rw [if_pos here, beq_iff_eq.mpr here]
      rfl
    · rw [if_neg here, beq_eq_false_iff_ne.mpr here]

/-! ### Edges -/

/-- Whether the blocks of a table stand under their own addresses. -/
def Keyed (blocks : AddressMap Block) : Prop :=
  ∀ {address : Address} {block : Block}, blocks[address]? = some block → block.address = address

/-- Whether some block of a table lists an edge. -/
def Lists (blocks : AddressMap Block) (edge : Edge) : Prop :=
  ∃ (address : Address) (block : Block),
    blocks[address]? = some block ∧ (edge ∈ block.edgesOut ∨ edge ∈ block.edgesIn)

/-- Whether the blocks of a table have got exchanged edges into their lists, and nothing else has
changed. -/
structure Gets (blocks : AddressMap Block) (edges : List ExchangeEdge)
    (next : AddressMap Block) : Prop where
  bare : ∀ address : Address,
    (next[address]?).map Block.withoutEdges = (blocks[address]?).map Block.withoutEdges
  known : ∀ edge ∈ edges, ∃ plain, ExchangeEdge.ofEdge plain = edge
  listed : ∀ edge, Lists next edge ↔ Lists blocks edge ∨ ExchangeEdge.ofEdge edge ∈ edges

theorem ofEdge_injective {first second : Edge}
    (same : ExchangeEdge.ofEdge first = ExchangeEdge.ofEdge second) : first = second := by
  obtain ⟨source, target, kind⟩ := first
  obtain ⟨otherSource, otherTarget, otherKind⟩ := second
  simp only [ExchangeEdge.ofEdge, ExchangeEdge.mk.injEq] at same
  obtain ⟨rfl, rfl, names⟩ := same
  have kinds := congrArg EdgeKind.ofName? names
  rw [EdgeKind.ofName?_name, EdgeKind.ofName?_name, Option.some.injEq] at kinds
  rw [kinds]

namespace Gets

variable {blocks middle next : AddressMap Block} {edges more : List ExchangeEdge}

theorem refl (blocks : AddressMap Block) : Gets blocks [] blocks :=
  ⟨fun _ => rfl, fun _ member => (List.not_mem_nil member).elim, fun _ => by simp⟩

theorem trans (first : Gets blocks edges middle) (second : Gets middle more next) :
    Gets blocks (edges ++ more) next where
  bare address := (second.bare address).trans (first.bare address)
  known := List.forall_mem_append.mpr ⟨first.known, second.known⟩
  listed edge := by
    rw [second.listed, first.listed, List.mem_append, or_assoc]

theorem keyed (gets : Gets blocks edges next) (keyed : Keyed blocks) : Keyed next := by
  intro address block found
  have same := gets.bare address
  rw [found, Option.map_some, eq_comm, Option.map_eq_some_iff] at same
  obtain ⟨old, oldFound, equal⟩ := same
  have addresses := congrArg Block.address equal
  calc block.address = old.address := addresses.symm
    _ = address := keyed oldFound

/-- A block whose lists get one edge. -/
theorem modify {home : Address} {block : Block} (found : blocks[home]? = some block)
    {change : Block → Block} {added : Edge}
    (bare : (change block).withoutEdges = block.withoutEdges)
    (lists : ∀ edge, edge ∈ (change block).edgesOut ∨ edge ∈ (change block).edgesIn ↔
      (edge ∈ block.edgesOut ∨ edge ∈ block.edgesIn) ∨ edge = added) :
    Gets blocks [.ofEdge added] (blocks.modify home change) where
  bare address := by
    rw [AddressMap.getElem?_modify]
    split
    · rename_i here
      rw [← here, found, Option.map_some, Option.map_some, Option.map_some, bare]
    · rfl
  known := List.forall_mem_singleton.mpr ⟨added, rfl⟩
  listed edge := by
    have same : ExchangeEdge.ofEdge edge ∈ [ExchangeEdge.ofEdge added] ↔ edge = added :=
      List.mem_singleton.trans ⟨ofEdge_injective, congrArg _⟩
    rw [same]
    constructor
    · rintro ⟨address, later, laterFound, member⟩
      rw [AddressMap.getElem?_modify] at laterFound
      split at laterFound
      · rename_i here
        rw [← here, found, Option.map_some, Option.some.injEq] at laterFound
        rw [← laterFound, lists] at member
        exact member.imp_left fun old => ⟨home, block, found, old⟩
      · exact Or.inl ⟨address, later, laterFound, member⟩
    · have changed : (blocks.modify home change)[home]? = some (change block) := by
        rw [AddressMap.getElem?_modify, if_pos rfl, found, Option.map_some]
      rintro (⟨address, old, oldFound, member⟩ | rfl)
      · by_cases here : home = address
        · rw [← here, found, Option.some.injEq] at oldFound
          exact ⟨home, _, changed, (lists edge).mpr (Or.inl (oldFound ▸ member))⟩
        · refine ⟨address, old, ?_, member⟩
          rw [AddressMap.getElem?_modify, if_neg here, oldFound]
      · exact ⟨home, _, changed, (lists edge).mpr (Or.inr rfl)⟩

end Gets

/-- An edge that is listed goes into the lists of one block. -/
theorem gets_listEdge {blocks next : AddressMap Block} {edge : ExchangeEdge}
    (keyed : Keyed blocks) (listed : listEdge blocks edge = .ok next) :
    Gets blocks [edge] next := by
  obtain ⟨source, target, key⟩ := edge
  unfold listEdge at listed
  split at listed
  · cases listed
  · rename_i kind named
    obtain rfl := EdgeKind.name_of_ofName? named
    split at listed
    · rename_i leaves
      obtain ⟨block, found⟩ := (AddressMap.contains_iff _ _).mp leaves
      obtain rfl := keyed found
      cases listed
      show Gets blocks [.ofEdge ⟨block.address, target, kind⟩] _
      refine Gets.modify found rfl fun edge => ?_
      rw [Block.addOut, Block.listOut, Block.mem_insertEdge, or_right_comm]
    · split at listed
      · rename_i enters
        obtain ⟨block, found⟩ := (AddressMap.contains_iff _ _).mp enters
        obtain rfl := keyed found
        cases listed
        show Gets blocks [.ofEdge ⟨source, block.address, kind⟩] _
        refine Gets.modify found rfl fun edge => ?_
        rw [Block.addIn, Block.listIn, Block.mem_insertEdge, or_assoc]
      · cases listed

/-- Listing edges one after another lists all of them, and nothing else. -/
theorem gets_foldlM_listEdge {blocks next : AddressMap Block} {edges : List ExchangeEdge}
    (keyed : Keyed blocks) (listed : edges.foldlM listEdge blocks = .ok next) :
    Gets blocks edges next := by
  induction edges generalizing blocks with
  | nil =>
    cases listed
    exact .refl _
  | cons edge rest inductionHypothesis =>
    rw [List.foldlM_cons] at listed
    obtain ⟨middle, first, others⟩ := Outcome.bind_eq_ok_iff.mp listed
    have got := gets_listEdge keyed first
    exact got.trans (inductionHypothesis (got.keyed keyed) others)

/-! ### Functions -/

section Found

variable {blocks : AddressMap Block} {addresses : List Address} {taken : List Block}

/-- A place is not empty if all of them were found. -/
theorem exists_of_found
    (found : (addresses.map fun address => blocks[address]?) = taken.map some)
    {address : Address} (member : address ∈ addresses) :
    ∃ block, blocks[address]? = some block := by
  have there : blocks[address]? ∈ taken.map some := found ▸ List.mem_map_of_mem member
  obtain ⟨block, _, same⟩ := List.mem_map.mp there
  exact ⟨block, same.symm⟩

theorem eq_filterMap_of_found
    (found : (addresses.map fun address => blocks[address]?) = taken.map some) :
    taken = addresses.filterMap fun address => blocks[address]? := by
  have kept := congrArg (List.filterMap id) found
  rw [List.filterMap_map, List.filterMap_map] at kept
  exact (kept.trans List.filterMap_some).symm

end Found

/-- Blocks that were taken were there, each once. -/
theorem of_takeBlocks {blocks left : AddressMap Block} {addresses : List Address}
    {taken : List Block} (took : takeBlocks blocks addresses = .ok (taken, left)) :
    addresses.Nodup ∧ (addresses.map fun address => blocks[address]?) = taken.map some := by
  induction addresses generalizing blocks taken with
  | nil =>
    cases took
    exact ⟨List.nodup_nil, rfl⟩
  | cons address rest inductionHypothesis =>
    unfold takeBlocks at took
    split at took
    · cases took
    · rename_i block found
      obtain ⟨⟨others, after⟩, restTook, equal⟩ := Outcome.bind_eq_ok_iff.mp took
      cases equal
      obtain ⟨distinct, restFound⟩ := inductionHypothesis restTook
      -- what is taken later is found in a table without the first address
      have later (other : Address) (member : other ∈ rest) :
          address ≠ other ∧ (blocks.erase address)[other]? = blocks[other]? := by
        obtain ⟨content, there⟩ := exists_of_found restFound member
        rw [AddressMap.getElem?_erase] at there ⊢
        split at there
        · cases there
        · rename_i different
          exact ⟨different, if_neg different⟩
      refine ⟨List.nodup_cons.mpr ⟨fun again => (later address again).1 rfl, distinct⟩, ?_⟩
      rw [List.map_cons, List.map_cons, found, ← restFound]
      exact congrArg _ (List.map_congr_left fun other member => (later other member).2.symm)

/-- The draft of an exchanged function, with the blocks of a table that stand at its addresses. -/
def draftOf (blocks : AddressMap Block) (entry : Address × ExchangeFunction) : FunctionDraft where
  address := some entry.1
  name := entry.2.name
  isExternal := entry.2.isExternal
  metadata := entry.2.metadata
  blocks := entry.2.blocks.filterMap fun address => blocks[address]?

/-- Functions that were described have the blocks of the table, and the others are left. -/
theorem of_takeFunctions {blocks left : AddressMap Block}
    {functions : List (Address × ExchangeFunction)} {drafts : List FunctionDraft}
    (took : takeFunctions blocks functions = .ok (drafts, left)) :
    drafts = functions.map (draftOf blocks) ∧
      (∀ entry ∈ functions, ∀ address ∈ entry.2.blocks,
        ∃ block, blocks[address]? = some block) ∧
      ∀ address : Address, left[address]? =
        if address ∈ functions.flatMap (fun entry => entry.2.blocks) then none
        else blocks[address]? := by
  induction functions generalizing blocks drafts with
  | nil =>
    cases took
    exact ⟨rfl, fun _ member => (List.not_mem_nil member).elim,
      fun address => (if_neg List.not_mem_nil).symm⟩
  | cons entry rest inductionHypothesis =>
    obtain ⟨address, function⟩ := entry
    unfold takeFunctions at took
    obtain ⟨⟨own, after⟩, ownTook, took⟩ := Outcome.bind_eq_ok_iff.mp took
    obtain ⟨⟨others, last⟩, restTook, equal⟩ := Outcome.bind_eq_ok_iff.mp took
    cases equal
    obtain ⟨distinct, ownFound⟩ := of_takeBlocks ownTook
    obtain ⟨remaining, again, lookups⟩ := takeBlocks_eq distinct ownFound
    obtain rfl : after = remaining := by
      rw [ownTook] at again
      cases again
      rfl
    obtain ⟨rfl, restFound, restLookups⟩ := inductionHypothesis restTook
    -- the blocks of later functions are not among those that were taken
    have later (other : Address × ExchangeFunction) (member : other ∈ rest) (place : Address)
        (listed : place ∈ other.2.blocks) : after[place]? = blocks[place]? := by
      obtain ⟨block, found⟩ := restFound other member place listed
      rw [lookups] at found ⊢
      split at found
      · cases found
      · rename_i elsewhere
        exact if_neg elsewhere
    refine ⟨?_, List.forall_mem_cons.mpr ⟨fun place listed => exists_of_found ownFound listed,
      fun other member place listed =>
        later other member place listed ▸ restFound other member place listed⟩, fun other => ?_⟩
    · rw [List.map_cons, draftOf, ← eq_filterMap_of_found ownFound]
      refine congrArg _ (List.map_congr_left fun other member => ?_)
      rw [draftOf, draftOf, List.filterMap_congr (later other member)]
    · rw [restLookups, lookups, List.flatMap_cons]
      by_cases inFunction : other ∈ function.blocks
      · simp [inFunction]
      · simp only [inFunction, if_false, List.mem_append, false_or]

/-- Whether drafts describe all functions of an exchange form, with all blocks of a table. -/
structure Splits (blocks : AddressMap Block) (functions : AddressMap ExchangeFunction)
    (drafts : List FunctionDraft) : Prop where
  drafts_eq : drafts = functions.toList.map (draftOf blocks)
  found : ∀ entry ∈ functions.toList, ∀ address ∈ entry.2.blocks,
    ∃ block, blocks[address]? = some block
  whole : ∀ {address : Address} {block : Block}, blocks[address]? = some block →
    address ∈ functions.toList.flatMap fun entry => entry.2.blocks

namespace Splits

variable {blocks : AddressMap Block} {functions : AddressMap ExchangeFunction}
  {drafts : List FunctionDraft}

/-- The blocks of the drafts are those of the table. -/
theorem exists_draft_iff (splits : Splits blocks functions drafts) {block : Block} :
    (∃ draft ∈ drafts, block ∈ draft.blocks) ↔
      ∃ address : Address, blocks[address]? = some block := by
  rw [splits.drafts_eq]
  constructor
  · rintro ⟨_, member, own⟩
    obtain ⟨entry, _, rfl⟩ := List.mem_map.mp member
    obtain ⟨address, _, found⟩ := List.mem_filterMap.mp own
    exact ⟨address, found⟩
  · rintro ⟨address, found⟩
    obtain ⟨entry, member, listed⟩ := List.mem_flatMap.mp (splits.whole found)
    exact ⟨_, List.mem_map_of_mem member, List.mem_filterMap.mpr ⟨address, listed, found⟩⟩

end Splits

/-! ### Graphs -/

variable {exchange : Exchange} {graph : Graph}

theorem keyed_tableOf (nodes : List ExchangeNode) : Keyed (tableOf nodes) := by
  intro address block found
  rw [getElem?_tableOf] at found
  obtain ⟨node, there, rfl⟩ := Option.map_eq_some_iff.mp found
  have same := List.find?_some there
  exact beq_iff_eq.mp same

theorem not_lists_tableOf (nodes : List ExchangeNode) (edge : Edge) :
    ¬ Lists (tableOf nodes) edge := by
  rintro ⟨address, block, found, listed⟩
  rw [getElem?_tableOf] at found
  obtain ⟨node, _, rfl⟩ := Option.map_eq_some_iff.mp found
  exact listed.elim List.not_mem_nil List.not_mem_nil

/-- The steps in which a graph was read. -/
theorem of_toGraph (read : exchange.toGraph = .ok graph) : ∃ listed drafts,
    Gets (tableOf exchange.nodes) exchange.edges listed ∧
      Splits listed exchange.functions drafts ∧
      Graph.Extends { Graph.withMetadata exchange.metadata with normalizer := exchange.normalizer }
        drafts graph := by
  obtain ⟨listed, edgesListed, read⟩ := Outcome.bind_eq_ok_iff.mp read
  obtain ⟨⟨drafts, left⟩, took, read⟩ := Outcome.bind_eq_ok_iff.mp read
  obtain ⟨described, found, lookups⟩ := of_takeFunctions took
  dsimp only at read
  split at read
  · cases read
  · rename_i nothingLeft
    obtain rfl := Std.ExtTreeMap.minKey?_eq_none_iff.mp nothingLeft
    refine ⟨listed, drafts, gets_foldlM_listEdge (keyed_tableOf _) edgesListed,
      ⟨described, found, fun {address block} there => ?_⟩, Graph.extends_of_addFunctions read⟩
    by_contra nowhere
    have kept := lookups address
    rw [if_neg nowhere, there, Std.ExtTreeMap.getElem?_empty] at kept
    cases kept

/-- A function comes back from its draft. -/
theorem ofFunction_placed {blocks : AddressMap Block} (keyed : Keyed blocks)
    {entry : Address × ExchangeFunction}
    (found : ∀ address ∈ entry.2.blocks, ∃ block, blocks[address]? = some block) :
    ExchangeFunction.ofFunction ((draftOf blocks entry).placed entry.1) = entry.2 := by
  have own : (entry.2.blocks.filterMap fun address => blocks[address]?).map Block.address =
      entry.2.blocks := by
    rw [List.map_filterMap]
    conv_rhs => rw [← List.filterMap_some (l := entry.2.blocks)]
    refine List.filterMap_congr fun address listed => ?_
    obtain ⟨block, there⟩ := found address listed
    rw [there, Option.map_some, keyed there]
  rw [ExchangeFunction.ofFunction, FunctionDraft.placed, draftOf, own]

theorem functions_of_toGraph (read : exchange.toGraph = .ok graph) :
    (ofGraph graph).functions = exchange.functions := by
  obtain ⟨listed, drafts, gets, splits, extended⟩ := of_toGraph read
  have keyed : Keyed listed := gets.keyed (keyed_tableOf _)
  refine AddressMap.eq_of_found fun address function => ?_
  rw [ofGraph, Std.ExtTreeMap.getElem?_map, Option.map_eq_some_iff]
  have entries : exchange.functions[address]? = some function ↔
      (address, function) ∈ exchange.functions.toList :=
    Std.ExtTreeMap.mem_toList_iff_getElem?_eq_some.symm
  rw [entries]
  have described (placed : Function) : graph.functions[address]? = some placed ↔
      ∃ entry ∈ exchange.functions.toList, entry.1 = address ∧
        (draftOf listed entry).placed address = placed := by
    rw [extended.functions, splits.drafts_eq]
    constructor
    · rintro (absent | ⟨_, member, resolved, rfl⟩)
      · cases Std.ExtTreeMap.getElem?_empty.symm.trans absent
      · obtain ⟨entry, there, rfl⟩ := List.mem_map.mp member
        exact ⟨entry, there, Option.some.inj resolved, rfl⟩
    · rintro ⟨entry, there, rfl, rfl⟩
      exact Or.inr ⟨_, List.mem_map_of_mem there, rfl, rfl⟩
  constructor
  · rintro ⟨placed, there, rfl⟩
    obtain ⟨entry, member, rfl, rfl⟩ := (described placed).mp there
    rw [ofFunction_placed keyed (splits.found entry member)]
    exact member
  · intro member
    exact ⟨_, (described _).mpr ⟨_, member, rfl, rfl⟩,
      ofFunction_placed keyed (splits.found _ member)⟩

/-- The block at an address has the contents of the node that counts there. -/
theorem node_of_toGraph (read : exchange.toGraph = .ok graph) (address : Address) :
    (graph.blocks[address]?).map ExchangeNode.ofBlock = exchange.nodeAt? address := by
  obtain ⟨listed, drafts, gets, splits, extended⟩ := of_toGraph read
  have keyed : Keyed listed := gets.keyed (keyed_tableOf _)
  have contents : ExchangeNode.ofBlock = ExchangeNode.ofBlock ∘ Block.withoutEdges := rfl
  have table : (listed[address]?).map ExchangeNode.ofBlock = exchange.nodeAt? address := by
    rw [contents, ← Option.map_map, gets.bare, getElem?_tableOf, Option.map_map, Option.map_map]
    exact Option.map_id'
  rw [← table]
  refine Option.ext fun node => ?_
  rw [contents, ← Option.map_map, Option.map_eq_some_iff, ← contents, Option.map_eq_some_iff]
  constructor
  · rintro ⟨bare, there, rfl⟩
    rcases (extended.blocks address bare).mp there with
      absent | ⟨draft, member, home, _, block, adopted, here, rfl⟩
    · exact nomatch (congrArg _ Std.ExtTreeMap.getElem?_empty).symm.trans absent
    · obtain ⟨own, ownMember, rfl⟩ := List.mem_map.mp adopted
      obtain ⟨place, found⟩ := splits.exists_draft_iff.mp ⟨draft, member, ownMember⟩
      obtain rfl : place = address := (keyed found).symm.trans here
      exact ⟨own, found, rfl⟩
  · rintro ⟨own, found, rfl⟩
    obtain ⟨draft, member, ownMember⟩ := splits.exists_draft_iff.mpr ⟨address, found⟩
    obtain ⟨entry, _, rfl⟩ := List.mem_map.mp (splits.drafts_eq ▸ member)
    have here : own.address = address := keyed found
    refine ⟨{ own with parent := some entry.1, edgesOut := [], edgesIn := [] }, ?_, rfl⟩
    exact (extended.blocks address _).mpr (Or.inr ⟨_, member, entry.1, rfl, _,
      List.mem_map_of_mem ownMember, here, rfl⟩)

theorem mem_listedEdges_of_toGraph (read : exchange.toGraph = .ok graph) {edge : Edge} :
    edge ∈ graph.listedEdges ↔ ExchangeEdge.ofEdge edge ∈ exchange.edges := by
  obtain ⟨listed, drafts, gets, splits, extended⟩ := of_toGraph read
  have nothing : edge ∉ Graph.listedEdges
      { Graph.withMetadata exchange.metadata with normalizer := exchange.normalizer } :=
    List.not_mem_nil
  have drafted : edge ∈ drafts.flatMap FunctionDraft.listedEdges ↔ Lists listed edge := by
    constructor
    · intro member
      obtain ⟨draft, given, inDraft⟩ := List.mem_flatMap.mp member
      obtain ⟨block, own, inBlock⟩ := List.mem_flatMap.mp inDraft
      obtain ⟨address, found⟩ := splits.exists_draft_iff.mp ⟨draft, given, own⟩
      exact ⟨address, block, found, List.mem_append.mp inBlock⟩
    · rintro ⟨address, block, found, inBlock⟩
      obtain ⟨draft, given, own⟩ := splits.exists_draft_iff.mpr ⟨address, found⟩
      exact List.mem_flatMap.mpr ⟨draft, given,
        List.mem_flatMap.mpr ⟨block, own, List.mem_append.mpr inBlock⟩⟩
  rw [extended.edges, or_iff_right nothing, drafted, gets.listed,
    or_iff_right (not_lists_tableOf exchange.nodes edge)]

/-! ### The exchange form of a sound graph -/

/-- The exchanged edges of a sound graph are those that its blocks list. -/
theorem mem_exchangedEdges (sound : graph.Sound) {edge : Edge} :
    edge ∈ graph.edges ++ pendingEdges graph ↔ edge ∈ graph.listedEdges := by
  rw [List.mem_append, Graph.mem_listedEdges]
  constructor
  · rintro (leaves | waits)
    · obtain ⟨block, listed, member⟩ := List.mem_flatMap.mp leaves
      exact ⟨_, block, sound.mem_blockList.mp listed, Or.inl member⟩
    · obtain ⟨block, listed, member⟩ := List.mem_flatMap.mp (List.mem_filter.mp waits).1
      exact ⟨_, block, sound.mem_blockList.mp listed, Or.inr member⟩
  · rintro ⟨address, block, found, listed⟩
    have ends := sound.symmetric edge
      ((Graph.mem_listedEdges graph edge).mpr ⟨address, block, found, listed⟩)
    cases present : graph.blocks.contains edge.source with
    | true =>
      obtain ⟨source, sourceFound⟩ := (AddressMap.contains_iff _ _).mp present
      exact Or.inl (List.mem_flatMap.mpr ⟨source, AddressMap.mem_contents_of_getElem? sourceFound,
        ends.1 source sourceFound⟩)
    | false =>
      rcases listed with leaves | enters
      · have own := (sound.ownEdges found).leaves edge leaves
        rw [sound.blockKey found] at own
        rw [own, AddressMap.contains_eq_false_iff, found] at present
        cases present
      · refine Or.inr (List.mem_filter.mpr ⟨List.mem_flatMap.mpr
          ⟨block, AddressMap.mem_contents_of_getElem? found, enters⟩, ?_⟩)
        rw [present]
        rfl

/-- Lists of edges that belong to the blocks of a sound graph, each edge to the block at one of its
ends, have no edge in common. -/
theorem nodup_flatMap_edges (sound : graph.Sound) {edgesOf : Block → List Edge}
    {home : Edge → Address}
    (own : ∀ block ∈ graph.blockList,
      (edgesOf block).Nodup ∧ ∀ edge ∈ edgesOf block, home edge = block.address) :
    (graph.blockList.flatMap edgesOf).Nodup := by
  have distinct : graph.blockList.Pairwise fun first second => first.address ≠ second.address := by
    have addresses := graph.blocks.nodup_addresses
    rw [sound.addresses_blocks] at addresses
    exact List.pairwise_map.mp addresses
  refine List.nodup_flatMap.mpr ⟨fun block listed => (own block listed).1, ?_⟩
  refine distinct.imp_of_mem fun {first second} firstListed secondListed different => ?_
  intro edge inFirst inSecond
  exact different (((own first firstListed).2 edge inFirst).symm.trans
    ((own second secondListed).2 edge inSecond))

/-- Each edge of a sound graph is exchanged once. -/
theorem nodup_exchangedEdges (sound : graph.Sound) :
    (graph.edges ++ pendingEdges graph).Nodup := by
  have own {block : Block} (listed : block ∈ graph.blockList) : block.ListsOwnEdges :=
    sound.ownEdges (sound.mem_blockList.mp listed)
  have leaving : graph.edges.Nodup :=
    nodup_flatMap_edges sound fun _ listed => ⟨(own listed).nodupOut, (own listed).leaves⟩
  have entering : (graph.blockList.flatMap Block.edgesIn).Nodup :=
    nodup_flatMap_edges sound fun _ listed => ⟨(own listed).nodupIn, (own listed).enters⟩
  refine List.nodup_append'.mpr ⟨leaving, entering.filter _, fun edge leaves waits => ?_⟩
  obtain ⟨block, listed, member⟩ := List.mem_flatMap.mp leaves
  have absent := (List.mem_filter.mp waits).2
  rw [(own listed).leaves edge member, Bool.not_eq_true', AddressMap.contains_eq_false_iff,
    sound.mem_blockList.mp listed] at absent
  cases absent

/-- If no two nodes have one address, each of them counts. -/
theorem nodeAt?_eq_some_iff (distinct : (exchange.nodes.map ExchangeNode.address).Nodup)
    {node : ExchangeNode} :
    exchange.nodeAt? node.address = some node ↔ node ∈ exchange.nodes := by
  constructor
  · exact fun found => List.mem_reverse.mp (List.mem_of_find?_eq_some found)
  · intro member
    have passes : (node.address == node.address) = true := beq_self_eq_true node.address
    cases found : exchange.nodeAt? node.address with
    | none =>
      exact absurd passes (List.find?_eq_none.mp found node (List.mem_reverse.mpr member))
    | some other =>
      have otherMember := List.mem_reverse.mp (List.mem_of_find?_eq_some found)
      have same := List.find?_some found
      rw [List.inj_on_of_nodup_map distinct otherMember member (beq_iff_eq.mp same)]

/-- What of an exchange form comes back from the graph that was read from it: everything but
nodes with an address that a later node has, edges once each. -/
structure ComesBack (exchange : Exchange) (graph : Graph) : Prop where
  normalizer : (ofGraph graph).normalizer = exchange.normalizer
  metadata : (ofGraph graph).metadata = exchange.metadata
  functions : (ofGraph graph).functions = exchange.functions
  edges : ∀ edge, edge ∈ (ofGraph graph).edges ↔ edge ∈ exchange.edges
  once : (ofGraph graph).edges.Nodup
  nodes : ∀ node, node ∈ (ofGraph graph).nodes ↔ exchange.nodeAt? node.address = some node
  ascend : ((ofGraph graph).nodes.map ExchangeNode.address).Pairwise (· < ·)
  all_iff : (ofGraph graph).nodes.Perm exchange.nodes ↔
    (exchange.nodes.map ExchangeNode.address).Nodup

theorem mem_nodes_of_toGraph (read : exchange.toGraph = .ok graph) {node : ExchangeNode} :
    node ∈ (ofGraph graph).nodes ↔ exchange.nodeAt? node.address = some node := by
  have laid := (sound_toGraph read).toLaid
  rw [← node_of_toGraph read, Option.map_eq_some_iff]
  constructor
  · intro member
    obtain ⟨block, listed, rfl⟩ := List.mem_map.mp member
    exact ⟨block, laid.mem_blockList.mp listed, rfl⟩
  · rintro ⟨block, found, same⟩
    exact List.mem_map.mpr ⟨block, AddressMap.mem_contents_of_getElem? found, same⟩

theorem ascend_nodes_of_sound (sound : graph.Sound) :
    ((ofGraph graph).nodes.map ExchangeNode.address).Pairwise (· < ·) := by
  have addresses : (ofGraph graph).nodes.map ExchangeNode.address = graph.blocks.addresses := by
    rw [sound.addresses_blocks, ofGraph, List.map_map]
    rfl
  rw [addresses]
  exact graph.blocks.addresses_ascend

/-- Whatever exchange form a graph is read from, all of it comes back but for nodes with an address
that a later node has; so all nodes come back exactly if no two of them have one address. -/
theorem read_comes_back (read : exchange.toGraph = .ok graph) : ComesBack exchange graph := by
  have sound := sound_toGraph read
  obtain ⟨listed, drafts, gets, _, extended⟩ := of_toGraph read
  have ascend := ascend_nodes_of_sound sound
  have distinctBack : ((ofGraph graph).nodes.map ExchangeNode.address).Nodup :=
    ascend.imp fun less => UInt64.ne_of_lt less
  refine
    { normalizer := extended.records.1
      metadata := extended.records.2
      functions := functions_of_toGraph read
      edges := fun edge => ?_
      once := (nodup_exchangedEdges sound).map fun _ _ => ofEdge_injective
      nodes := fun node => mem_nodes_of_toGraph read
      ascend
      all_iff := ⟨fun all => (all.map _).nodup_iff.mp distinctBack, fun distinct => ?_⟩ }
  · rw [ofGraph, List.mem_map]
    constructor
    · rintro ⟨plain, member, rfl⟩
      exact (mem_listedEdges_of_toGraph read).mp ((mem_exchangedEdges sound).mp member)
    · intro member
      obtain ⟨plain, rfl⟩ := gets.known edge member
      exact ⟨plain, (mem_exchangedEdges sound).mpr ((mem_listedEdges_of_toGraph read).mpr member),
        rfl⟩
  · refine (List.perm_ext_iff_of_nodup (.of_map _ distinctBack) (.of_map _ distinct)).mpr
      fun node => ?_
    rw [mem_nodes_of_toGraph read, nodeAt?_eq_some_iff distinct]

/-! ### A node that is lost -/

/-- The exchange form of the open loop comes back whole. -/
theorem openGraph_read_comes_back : ∃ next, (ofGraph Graph.openGraph).toGraph = .ok next ∧
    ComesBack (ofGraph Graph.openGraph) next := by
  have read := Graph.reachable_openGraph.sound.toGraph_exchange
  exact ⟨_, read, read_comes_back read⟩

/-- A function with one block, for which there are two nodes. -/
def twice : Exchange where
  normalizer := none
  metadata := ∅
  functions := (∅ : AddressMap ExchangeFunction).insert 16 ⟨none, false, [16], ∅⟩
  nodes := [⟨16, ["call"], [], ∅⟩, ⟨16, ["ret"], [], ∅⟩]
  edges := []

/-- The function with the block of the later node. -/
def lastOfTwice : FunctionDraft :=
  ⟨some 16, none, false, ∅, [{ Block.new 16 with lines := ["ret"] }]⟩

theorem toGraph_twice :
    twice.toGraph = (Graph.withMetadata ∅).addFunctions [lastOfTwice] false := by
  have nodes : (twice.nodes.foldl
      (fun table node => table.insert node.address node.toBlock) ∅ : AddressMap Block) =
        tableOf twice.nodes := rfl
  have edges : twice.edges.foldlM listEdge (tableOf twice.nodes) = .ok (tableOf twice.nodes) := rfl
  have took : takeFunctions (tableOf twice.nodes) twice.functions.toList =
      .ok ([lastOfTwice], ∅) := by rfl
  simp only [toGraph, nodes, edges, took, Outcome.ok_bind, Std.ExtTreeMap.minKey?_empty]
  rfl

/-- The form with two nodes for one block is read, and the first of them is lost. -/
theorem twice_loses_node : ∃ graph, twice.toGraph = .ok graph ∧
    twice.nodes.map ExchangeNode.lines = [["call"], ["ret"]] ∧
    (ofGraph graph).nodes.map ExchangeNode.lines = [["ret"]] := by
  have added : ((Graph.withMetadata ∅).addFunctions [lastOfTwice] false).map
      (fun graph => (ofGraph graph).nodes.map ExchangeNode.lines) = .ok [["ret"]] := by
    decide +kernel
  obtain ⟨graph, succeeds, lines⟩ := Outcome.map_eq_ok_iff.mp added
  exact ⟨graph, toGraph_twice.trans succeeds, rfl, lines⟩

end Exchange

end FlowGraph
