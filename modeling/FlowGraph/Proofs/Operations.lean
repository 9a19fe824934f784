/-
This file proves that the operations on graphs keep them sound: replacing records, copying,
building the index, rewriting lines, adding an edge and inserting a library. A library is a batch
of moved functions with edges added to it afterwards, so all that is asked of it is that its
blocks list edges of their own.
-/

import FlowGraph.Library
import FlowGraph.Proofs.Batch

namespace FlowGraph

namespace Graph

variable {graph : Graph}

/-! ### Beginnings -/

/-- A graph without functions and without an index is sound. -/
theorem sound_of_empty {normalizer : Option String} {tokens : Option TokenStore}
    {metadata : Metadata} : Sound ⟨∅, ∅, normalizer, tokens, metadata, none⟩ where
  blockKey found := by rw [Std.ExtTreeMap.getElem?_empty] at found; cases found
  functionKey found := by rw [Std.ExtTreeMap.getElem?_empty] at found; cases found
  owner found := by rw [Std.ExtTreeMap.getElem?_empty] at found; cases found
  member found := by rw [Std.ExtTreeMap.getElem?_empty] at found; cases found
  ownEdges found := by rw [Std.ExtTreeMap.getElem?_empty] at found; cases found
  lineAddresses found := by rw [Std.ExtTreeMap.getElem?_empty] at found; cases found
  indexed built := nomatch built
  symmetric edge listed := by
    obtain ⟨address, block, found, _⟩ := (mem_listedEdges _ edge).mp listed
    rw [Std.ExtTreeMap.getElem?_empty] at found
    cases found

/-! ### Records, copies and the index -/

/-- The name of the normalizer, the token store and the metadata do not matter. -/
theorem Sound.withRecords (sound : graph.Sound) (normalizer : Option String)
    (tokens : Option TokenStore) (metadata : Metadata) :
    Sound { graph with normalizer, tokens, metadata } :=
  ⟨⟨sound.blockKey, sound.functionKey, sound.owner, sound.member, sound.ownEdges,
    sound.lineAddresses, fun built => ⟨(sound.indexed built).holds, (sound.indexed built).finds⟩⟩,
    sound.symmetric⟩

theorem Sound.copy (sound : graph.Sound) : graph.copy.Sound :=
  ⟨⟨sound.blockKey, sound.functionKey, sound.owner, sound.member, sound.ownEdges,
    sound.lineAddresses, fun built => (nomatch built)⟩, sound.symmetric⟩

theorem Sound.ensureIndex (sound : graph.Sound) : graph.ensureIndex.Sound := by
  unfold Graph.ensureIndex
  split
  · exact sound
  · refine ⟨⟨sound.blockKey, sound.functionKey, sound.owner, sound.member, sound.ownEdges,
      sound.lineAddresses, fun built => ?_⟩, sound.symmetric⟩
    cases built
    exact ⟨(indexedBy_indexOf sound.blockKey).holds, (indexedBy_indexOf sound.blockKey).finds⟩

/-! ### Contents of blocks -/

theorem listedEdges_mapBlocks (graph : Graph) {change : Block → Block}
    (edges : ∀ block : Block, (change block).edgesOut = block.edgesOut ∧
      (change block).edgesIn = block.edgesIn) :
    listedEdges { graph with blocks := graph.blocks.map fun _ block => change block } =
      graph.listedEdges := by
  rw [listedEdges, blockList, AddressMap.contents_map, List.flatMap_map]
  exact List.flatMap_congr fun block _ => by rw [(edges block).1, (edges block).2]

/-- A graph stays sound if its blocks change but for their frames and edges. -/
theorem Sound.mapBlocks (sound : graph.Sound) {change : Block → Block}
    (frame : ∀ block, (change block).frame = block.frame)
    (edges : ∀ block : Block, (change block).edgesOut = block.edgesOut ∧
      (change block).edgesIn = block.edgesIn) :
    Sound { graph with blocks := graph.blocks.map fun _ block => change block } := by
  have found (address : Address) : (graph.blocks.map fun _ block => change block)[address]? =
      graph.blocks[address]?.map change := Std.ExtTreeMap.getElem?_map
  refine ⟨sound.toLaid.of_frame rfl rfl (fun address => ?_) fun there => ?_, fun edge listed => ?_⟩
  · rw [found, Option.map_map]
    exact congrArg (graph.blocks[address]?.map ·) (funext frame)
  · rw [found, Option.map_eq_some_iff] at there
    obtain ⟨old, oldFound, rfl⟩ := there
    have own := sound.ownEdges oldFound
    have same := (Block.frame_eq_iff.mp (frame old)).1
    refine ⟨?_, ?_, ?_, ?_⟩
    · rw [(edges old).1]
      exact own.nodupOut
    · rw [(edges old).1, same]
      exact own.leaves
    · rw [(edges old).2]
      exact own.nodupIn
    · rw [(edges old).2, same]
      exact own.enters
  · rw [listedEdges_mapBlocks graph edges] at listed
    refine ⟨fun source there => ?_, fun target there => ?_⟩ <;>
      rw [found, Option.map_eq_some_iff] at there
    · obtain ⟨old, oldFound, rfl⟩ := there
      rw [(edges old).1]
      exact (sound.symmetric edge listed).1 old oldFound
    · obtain ⟨old, oldFound, rfl⟩ := there
      rw [(edges old).2]
      exact (sound.symmetric edge listed).2 old oldFound

/-! ### Lines -/

/-- The graph with every line rewritten by a normalizer of some name: one line for each line. -/
def reline (graph : Graph) (rewrite : String → String) (name : String) : Graph :=
  { graph with
    blocks := graph.blocks.map fun _ block => { block with lines := block.lines.map rewrite }
    normalizer := some name }

theorem normalizeLines_eq_reline (graph : Graph) (normalizer : Normalizer) :
    graph.normalizeLines normalizer = graph.reline normalizer.normalizeLine normalizer.name := rfl

theorem blockList_reline (graph : Graph) (rewrite : String → String) (name : String) :
    (graph.reline rewrite name).blockList = graph.blockList.map fun block =>
      { block with lines := block.lines.map rewrite } :=
  AddressMap.contents_map _ _

/-- Rewriting lines keeps a graph sound. -/
theorem Sound.reline (sound : graph.Sound) (rewrite : String → String) (name : String) :
    (graph.reline rewrite name).Sound := by
  have frame (block : Block) :
      { block with lines := block.lines.map rewrite }.frame = block.frame := by
    simp only [Block.frame, List.length_map]
  exact (sound.mapBlocks frame fun _ => ⟨rfl, rfl⟩).withRecords (some name) graph.tokens
    graph.metadata

/-- A normalized graph is the graph, with its lines rewritten if the normalizer was applied, and
perhaps another token store. -/
theorem exists_graph_normalize (graph : Graph) (pool : Pool) (normalizer : Normalizer)
    (store : Option TokenStore) (force : Bool) : ∃ tokens,
    (graph.normalize pool normalizer store force).graph =
      { (if force || graph.normalizer != some normalizer.name then
          graph.normalizeLines normalizer else graph) with tokens } := by
  unfold normalize
  dsimp only
  split
  · exact ⟨_, rfl⟩
  · exact ⟨_, rfl⟩
  · exact ⟨_, rfl⟩

theorem Sound.normalize (sound : graph.Sound) (pool : Pool) (normalizer : Normalizer)
    (store : Option TokenStore) (force : Bool) :
    (graph.normalize pool normalizer store force).graph.Sound := by
  obtain ⟨tokens, same⟩ := exists_graph_normalize graph pool normalizer store force
  rw [same]
  split
  · rw [normalizeLines_eq_reline]
    exact (sound.reline normalizer.normalizeLine normalizer.name).withRecords _ _ _
  · exact sound.withRecords _ _ _

/-! ### Growth -/

theorem addEdge_eq_ok_iff {edge : Edge} {next : Graph} :
    graph.addEdge edge = .ok next ↔ graph.spans edge = true ∧ graph.connect edge = next := by
  unfold addEdge spans
  by_cases target : graph.blocks.contains edge.target = true <;>
    by_cases source : graph.blocks.contains edge.source = true <;> simp [source, target]

theorem Sound.addEdge (sound : graph.Sound) {edge : Edge} {next : Graph}
    (added : graph.addEdge edge = .ok next) : next.Sound := by
  obtain ⟨_, rfl⟩ := addEdge_eq_ok_iff.mp added
  exact sound.foldl_connect [edge]

/-- The blocks of a moved library are its blocks, each of them moved. -/
theorem Laid.mem_blocks_relocated (laid : graph.Laid) (offset : Address) {block : Block} :
    block ∈ (graph.relocated offset).flatMap FunctionDraft.blocks ↔
      ∃ old ∈ graph.blockList, old.shifted offset = block := by
  have whole : (graph.relocated offset).flatMap FunctionDraft.blocks =
      (graph.functionList.flatMap graph.blocksOf).map fun block => block.shifted offset := by
    rw [relocated, List.flatMap_map, List.map_flatMap]
  rw [whole, (laid.flatMap_blocksOf_perm.map _).mem_iff, List.mem_map]

/-- The functions of a moved library list their own edges. -/
theorem Sound.relocated_listsOwnEdges (sound : graph.Sound) (offset : Address) :
    ∀ draft ∈ graph.relocated offset, ∀ block ∈ draft.blocks, block.ListsOwnEdges := by
  intro draft member block own
  obtain ⟨before, listed, rfl⟩ := (sound.mem_blocks_relocated offset).mp
    (List.mem_flatMap.mpr ⟨draft, member, own⟩)
  exact (sound.ownEdges (sound.mem_blockList.mp listed)).shifted offset

/-- Edges can be added in turn exactly if both ends of each of them are in the graph. -/
theorem foldlM_addEdge_eq_ok_iff {edges : List Edge} {next : Graph} :
    edges.foldlM Graph.addEdge graph = .ok next ↔
      (∀ edge ∈ edges, graph.spans edge = true) ∧ edges.foldl connect graph = next := by
  induction edges generalizing graph with
  | nil =>
    rw [List.foldlM_nil]
    exact ⟨fun equal => ⟨fun _ member => (List.not_mem_nil member).elim, Except.ok.inj equal⟩,
      fun both => congrArg Except.ok both.2⟩
  | cons edge rest inductionHypothesis =>
    simp only [List.foldlM_cons, Outcome.bind_eq_ok_iff, addEdge_eq_ok_iff, inductionHypothesis,
      List.forall_mem_cons, List.foldl_cons]
    constructor
    · rintro ⟨_, ⟨spans, rfl⟩, others, equal⟩
      simp only [spans_connect] at others
      exact ⟨⟨spans, others⟩, equal⟩
    · rintro ⟨⟨spans, others⟩, equal⟩
      refine ⟨_, ⟨spans, rfl⟩, ?_, equal⟩
      simp only [spans_connect]
      exact others

theorem foldl_connect_records (graph : Graph) (edges : List Edge) :
    (edges.foldl connect graph).normalizer = graph.normalizer ∧
      (edges.foldl connect graph).metadata = graph.metadata := by
  rw [foldl_connect_eq]
  exact ⟨rfl, rfl⟩

theorem addFunctions_records {drafts : List FunctionDraft} {override : Bool} {next : Graph}
    (added : graph.addFunctions drafts override = .ok next) :
    next.normalizer = graph.normalizer ∧ next.metadata = graph.metadata := by
  obtain ⟨addresses, _, rfl⟩ := addFunctions_eq_ok_iff.mp added
  have placed : (graph.placeAll addresses drafts).normalizer = graph.normalizer ∧
      (graph.placeAll addresses drafts).metadata = graph.metadata := by
    rw [placeAll_eq]
    exact ⟨rfl, rfl⟩
  have wired := foldl_connect_records (graph.placeAll addresses drafts)
    (graph.placeAll addresses drafts).listedEdges
  exact ⟨wired.1.trans placed.1, wired.2.trans placed.2⟩

/-- A library is inserted in steps: a place is found, links are made, the moved functions are
added, and last the links. -/
theorem insertLibrary_eq_ok_iff {library next : Graph}
    {mapping : Std.ExtTreeMap String Address} {requested : Option Address} {offset : Address} :
    graph.insertLibrary library mapping requested = .ok (offset, next) ↔
      ∃ least greatest links merged, library.lineSpan? = some (least, greatest) ∧
        graph.placement least (greatest - least) requested = .ok offset ∧
        graph.stubEdges library mapping offset = .ok links ∧
        graph.addFunctions (library.relocated offset) false = .ok merged ∧
        (∀ edge ∈ links, merged.spans edge = true) ∧ links.foldl connect merged = next := by
  unfold Graph.insertLibrary
  split
  · rename_i unknown
    refine ⟨fun equal => (nomatch equal), ?_⟩
    rintro ⟨_, _, _, _, span, _⟩
    rw [unknown] at span
    cases span
  · rename_i least greatest span
    simp only [Outcome.bind_eq_ok_iff, foldlM_addEdge_eq_ok_iff]
    constructor
    · rintro ⟨_, placed, links, linked, merged, added, _, connected, equal⟩
      cases equal
      exact ⟨least, greatest, links, merged, span, placed, linked, added, connected⟩
    · rintro ⟨_, _, links, merged, spanHere, placed, linked, added, connected⟩
      cases span.symm.trans spanHere
      exact ⟨offset, placed, links, linked, merged, added, next, connected, rfl⟩

theorem insertLibrary_records {library next : Graph} {mapping : Std.ExtTreeMap String Address}
    {requested : Option Address} {offset : Address}
    (inserted : graph.insertLibrary library mapping requested = .ok (offset, next)) :
    next.normalizer = graph.normalizer ∧ next.metadata = graph.metadata := by
  obtain ⟨_, _, links, merged, _, _, _, added, _, rfl⟩ := insertLibrary_eq_ok_iff.mp inserted
  have linked := foldl_connect_records merged links
  have before := addFunctions_records added
  exact ⟨linked.1.trans before.1, linked.2.trans before.2⟩

theorem Sound.insertLibrary {library : Graph} (sound : graph.Sound) (librarySound : library.Sound)
    {mapping : Std.ExtTreeMap String Address} {requested : Option Address} {offset : Address}
    {next : Graph}
    (inserted : graph.insertLibrary library mapping requested = .ok (offset, next)) :
    next.Sound := by
  obtain ⟨_, _, links, merged, _, _, _, added, _, rfl⟩ := insertLibrary_eq_ok_iff.mp inserted
  exact (sound.toLaid.addFunctions (librarySound.relocated_listsOwnEdges offset)
    added).foldl_connect links

end Graph

end FlowGraph
