/-
This file proves that the graphs which snapshots, exchange forms and compact graphs describe are
sound. Each of the three puts its blocks together edge by edge and then adds all functions to an
empty graph in one batch, so the blocks of the batch list edges of their own, whatever the
description says.
-/

import FlowGraph.Compact.Expand
import FlowGraph.Exchange
import FlowGraph.Proofs.Operations

namespace FlowGraph

/-! ### Snapshots -/

theorem BlockSnapshot.built_toBlock (snapshot : BlockSnapshot) : snapshot.toBlock.Built := by
  unfold toBlock
  refine List.foldlRecOn _ _ (List.foldlRecOn _ _ ?_ fun _ built _ _ => built.addOut _ _)
    fun _ built _ _ => built.addIn _ _
  exact (Block.Built.new snapshot.address).fill _ _ _ _

theorem Snapshot.sound_toGraph {snapshot : Snapshot} {graph : Graph}
    (read : snapshot.toGraph = .ok graph) : graph.Sound := by
  refine Graph.Laid.addFunctions Graph.sound_of_empty.toLaid (fun draft member block own => ?_) read
  obtain ⟨function, _, rfl⟩ := List.mem_map.mp member
  obtain ⟨described, _, rfl⟩ := List.mem_map.mp own
  exact described.built_toBlock.listsOwnEdges

/-! ### Exchange forms -/

namespace Exchange

/-- Whether all blocks of a table were put together edge by edge. -/
def AllBuilt (blocks : AddressMap Block) : Prop :=
  ∀ {address : Address} {block : Block}, blocks[address]? = some block → block.Built

theorem AllBuilt.modify {blocks : AddressMap Block} (built : AllBuilt blocks) (address : Address)
    {change : Block → Block} (keeps : ∀ block : Block, block.Built → (change block).Built) :
    AllBuilt (blocks.modify address change) := by
  intro other block found
  rw [AddressMap.getElem?_modify] at found
  split at found
  · obtain ⟨old, oldFound, rfl⟩ := Option.map_eq_some_iff.mp found
    exact keeps old (built oldFound)
  · exact built found

theorem AllBuilt.nodes (nodes : List ExchangeNode) :
    AllBuilt (nodes.foldl (fun table node => table.insert node.address node.toBlock) ∅) := by
  refine List.foldlRecOn nodes _ (motive := AllBuilt) (fun found => ?_)
    fun table built node _ address block found => ?_
  · rw [Std.ExtTreeMap.getElem?_empty] at found
    cases found
  · rw [AddressMap.getElem?_insert] at found
    split at found
    · cases found
      exact (Block.Built.new node.address).fill _ _ _ _
    · exact built found

theorem AllBuilt.listEdge {blocks next : AddressMap Block} (built : AllBuilt blocks)
    {edge : ExchangeEdge} (listed : listEdge blocks edge = .ok next) : AllBuilt next := by
  unfold Exchange.listEdge at listed
  split at listed
  · cases listed
  · split at listed
    · cases listed
      exact built.modify _ fun _ old => old.addOut _ _
    · split at listed
      · cases listed
        exact built.modify _ fun _ old => old.addIn _ _
      · cases listed

theorem AllBuilt.takeBlocks {blocks left : AddressMap Block} {addresses : List Address}
    {taken : List Block} (built : AllBuilt blocks)
    (took : takeBlocks blocks addresses = .ok (taken, left)) :
    (∀ block ∈ taken, block.Built) ∧ AllBuilt left := by
  induction addresses generalizing blocks taken with
  | nil =>
    cases took
    exact ⟨fun _ member => (List.not_mem_nil member).elim, built⟩
  | cons address rest inductionHypothesis =>
    unfold Exchange.takeBlocks at took
    split at took
    · cases took
    · rename_i block found
      obtain ⟨⟨others, after⟩, restTook, equal⟩ := Outcome.bind_eq_ok_iff.mp took
      cases equal
      have erased : AllBuilt (blocks.erase address) := by
        intro other block there
        rw [AddressMap.getElem?_erase] at there
        split at there
        · cases there
        · exact built there
      obtain ⟨othersBuilt, leftBuilt⟩ := inductionHypothesis erased restTook
      exact ⟨List.forall_mem_cons.mpr ⟨built found, othersBuilt⟩, leftBuilt⟩

theorem AllBuilt.takeFunctions {blocks left : AddressMap Block}
    {functions : List (Address × ExchangeFunction)} {drafts : List FunctionDraft}
    (built : AllBuilt blocks) (took : takeFunctions blocks functions = .ok (drafts, left)) :
    ∀ draft ∈ drafts, ∀ block ∈ draft.blocks, block.Built := by
  induction functions generalizing blocks drafts with
  | nil =>
    cases took
    exact fun _ member => (List.not_mem_nil member).elim
  | cons entry rest inductionHypothesis =>
    obtain ⟨address, function⟩ := entry
    unfold Exchange.takeFunctions at took
    obtain ⟨⟨own, after⟩, ownTook, took⟩ := Outcome.bind_eq_ok_iff.mp took
    obtain ⟨⟨others, last⟩, restTook, equal⟩ := Outcome.bind_eq_ok_iff.mp took
    cases equal
    obtain ⟨ownBuilt, afterBuilt⟩ := built.takeBlocks ownTook
    exact List.forall_mem_cons.mpr ⟨ownBuilt, inductionHypothesis afterBuilt restTook⟩

theorem sound_toGraph {exchange : Exchange} {graph : Graph}
    (read : exchange.toGraph = .ok graph) : graph.Sound := by
  obtain ⟨listed, edgesListed, read⟩ := Outcome.bind_eq_ok_iff.mp read
  obtain ⟨⟨drafts, left⟩, took, read⟩ := Outcome.bind_eq_ok_iff.mp read
  have built : AllBuilt listed :=
    Outcome.foldlM_keeps AllBuilt (fun _ _ _ _ before step => before.listEdge step)
      (AllBuilt.nodes exchange.nodes) edgesListed
  dsimp only at read
  split at read
  · cases read
  · refine Graph.Laid.addFunctions Graph.sound_of_empty.toLaid
      (fun draft member block own => ?_) read
    exact (built.takeFunctions took draft member block own).listsOwnEdges

end Exchange

/-! ### Compact graphs -/

namespace Compact

/-- Whether all blocks of some functions were put together edge by edge. -/
def DraftsBuilt (drafts : List FunctionDraft) : Prop :=
  ∀ draft ∈ drafts, ∀ block ∈ draft.blocks, block.Built

theorem built_of_rebuiltBlock {compact : Compact} {pool : Pool} {addresses : List Address}
    {number : Nat} {metadata : Metadata} {block : Block}
    (rebuilt : compact.rebuiltBlock pool addresses number metadata = .ok block) : block.Built := by
  obtain ⟨address, _, rebuilt⟩ := Outcome.bind_eq_ok_iff.mp rebuilt
  obtain ⟨stored, _, rebuilt⟩ := Outcome.bind_eq_ok_iff.mp rebuilt
  obtain ⟨lines, _, rebuilt⟩ := Outcome.bind_eq_ok_iff.mp rebuilt
  obtain ⟨targets, _, rebuilt⟩ := Outcome.bind_eq_ok_iff.mp rebuilt
  obtain ⟨edges, _, rebuilt⟩ := Outcome.bind_eq_ok_iff.mp rebuilt
  cases rebuilt
  refine List.foldlRecOn _ _ ?_ fun _ built _ _ => built.addOut _ _
  exact (Block.Built.new address).fill _ _ _ _

theorem DraftsBuilt.giveBlock {drafts : List FunctionDraft} (built : DraftsBuilt drafts)
    (function : Nat) (flags : BlockFlags) {block : Block} (own : block.Built) :
    DraftsBuilt (giveBlock drafts function flags block) := by
  intro draft member other otherMember
  obtain ⟨position, found⟩ := List.mem_iff_getElem?.mp member
  unfold Compact.giveBlock at found
  rw [List.getElem?_modify] at found
  obtain ⟨old, oldFound, rfl⟩ := Option.map_eq_some_iff.mp found
  have oldBuilt := built old (List.mem_of_getElem? oldFound)
  split at otherMember
  · rcases List.mem_append.mp otherMember with before | added
    · exact oldBuilt other before
    · exact List.mem_singleton.mp added ▸ own
  · exact oldBuilt other otherMember

theorem DraftsBuilt.rebuildInto {compact : Compact} {pool : Pool} {addresses : List Address}
    {drafts next : List FunctionDraft} {entry : Metadata × Nat} (built : DraftsBuilt drafts)
    (rebuilt : compact.rebuildInto pool addresses drafts entry = .ok next) : DraftsBuilt next := by
  unfold Compact.rebuildInto at rebuilt
  obtain ⟨block, own, rebuilt⟩ := Outcome.bind_eq_ok_iff.mp rebuilt
  obtain ⟨flags, _, rebuilt⟩ := Outcome.bind_eq_ok_iff.mp rebuilt
  obtain ⟨function, _, rebuilt⟩ := Outcome.bind_eq_ok_iff.mp rebuilt
  split at rebuilt
  · cases rebuilt
    exact built.giveBlock function flags (built_of_rebuiltBlock own)
  · cases rebuilt

theorem draftsBuilt_of_bareDrafts {compact : Compact} {tables : List Metadata}
    {drafts : List FunctionDraft} (bare : compact.bareDrafts tables = .ok drafts) :
    DraftsBuilt drafts := by
  intro draft member block own
  unfold bareDrafts at bare
  split at bare
  on_goal 2 => cases bare
  cases bare
  obtain ⟨metadata, _, rfl⟩ := List.mem_map.mp member
  exact (List.not_mem_nil own).elim

theorem blocks_of_namedDraft? {name : String} {draft named : FunctionDraft}
    (found : namedDraft? name draft = some named) : named.blocks = draft.blocks := by
  unfold namedDraft? at found
  split at found
  · cases found
  · split at found
    · cases found
      rfl
    · cases found
      rfl

/-- A compact graph is expanded by adding one batch to an empty graph, and the blocks of the batch
were put together edge by edge. -/
theorem exists_drafts_of_toGraph {compact : Compact} {pool : Pool} {graph : Graph}
    (read : compact.toGraph pool = .ok graph) : ∃ drafts, DraftsBuilt drafts ∧
      { Graph.withMetadata compact.metadata with normalizer := compact.normalizer }.addFunctions
        drafts false = .ok graph := by
  obtain ⟨addresses, _, read⟩ := Outcome.bind_eq_ok_iff.mp read
  obtain ⟨functionTables, _, read⟩ := Outcome.bind_eq_ok_iff.mp read
  obtain ⟨bareDrafts, bare, read⟩ := Outcome.bind_eq_ok_iff.mp read
  obtain ⟨tables, _, read⟩ := Outcome.bind_eq_ok_iff.mp read
  obtain ⟨drafts, rebuilt, read⟩ := Outcome.bind_eq_ok_iff.mp read
  have built : DraftsBuilt drafts :=
    Outcome.foldlM_keeps DraftsBuilt (fun _ _ _ _ before step => before.rebuildInto step)
      (draftsBuilt_of_bareDrafts bare) rebuilt
  refine ⟨_, fun draft member block own => ?_, Outcome.mapError_eq_ok_iff.mp read⟩
  obtain ⟨⟨name, old⟩, paired, named⟩ := List.mem_filterMap.mp member
  rw [blocks_of_namedDraft? named] at own
  exact built old (List.of_mem_zip paired).2 block own

theorem sound_toGraph {compact : Compact} {pool : Pool} {graph : Graph}
    (read : compact.toGraph pool = .ok graph) : graph.Sound := by
  obtain ⟨drafts, built, added⟩ := exists_drafts_of_toGraph read
  exact Graph.Laid.addFunctions Graph.sound_of_empty.toLaid
    (fun draft member block own => (built draft member block own).listsOwnEdges) added

end Compact

end FlowGraph
