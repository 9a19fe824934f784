/-
This file proves that a graph comes back from its snapshot. A block that lists
its own edges is put together again from its contents and the other ends of its
edges, so the snapshot describes the functions of the graph as they are. The
graph that is put together from them is sound before it is wired, and wiring
leaves it alone.
-/

import FlowGraph.Proofs.Decoders
import FlowGraph.Proofs.Described
import FlowGraph.Proofs.Reachable
import FlowGraph.Proofs.Reassembled

namespace FlowGraph

/-! ### Blocks -/

/-- A block comes back from its snapshot, outside of any function. -/
theorem BlockSnapshot.toBlock_ofBlock {block : Block} (own : block.ListsOwnEdges) :
    (ofBlock block).toBlock = { block with parent := none } := by
  have unfolded : (ofBlock block).toBlock =
      block.edgesIn.foldl (fun block edge => block.addIn edge.source edge.kind)
        (block.edgesOut.foldl (fun block edge => block.addOut edge.target edge.kind)
          { block with edgesOut := [], edgesIn := [], parent := none }) := rfl
  rw [unfolded]
  exact Block.foldl_addIn_foldl_addOut _ rfl rfl
    ⟨own.nodupOut, own.leaves, own.nodupIn, own.enters⟩

namespace Graph

variable {graph : Graph}

/-- The graph as it comes back from a file: without a token store and an index. -/
def stored (graph : Graph) : Graph := { graph with tokens := none, index := none }

/-- The blocks of a sound graph can be replaced by those of their snapshots. -/
theorem Sound.replaceable_toBlock (sound : graph.Sound) :
    graph.Replaceable fun block => (BlockSnapshot.ofBlock block).toBlock := by
  have own {block : Block} (listed : block ∈ graph.blockList) : block.ListsOwnEdges :=
    sound.ownEdges (sound.mem_blockList.mp listed)
  refine ⟨fun block listed => ?_, fun block listed => ?_, fun block listed => ?_⟩
  · rw [BlockSnapshot.toBlock_ofBlock (own listed)]
  · have matched := sound.lineAddresses (sound.mem_blockList.mp listed)
    rwa [BlockSnapshot.toBlock_ofBlock (own listed)]
  · exact (BlockSnapshot.built_toBlock _).listsOwnEdges

/-- Blocks that come back unchanged make up the graph. -/
theorem Sound.changed_toBlock (sound : graph.Sound) :
    graph.changed (fun block => (BlockSnapshot.ofBlock block).toBlock) = graph.stored := by
  have blocks : (graph.changed fun block => (BlockSnapshot.ofBlock block).toBlock).blocks =
      graph.blocks := by
    refine Std.ExtTreeMap.ext_getElem? fun address => ?_
    rw [getElem?_changed]
    cases found : graph.blocks[address]? with
    | none => rfl
    | some block =>
      rw [Option.map_some, BlockSnapshot.toBlock_ofBlock (sound.ownEdges found)]
  rw [changed] at blocks ⊢
  dsimp only at blocks
  rw [blocks, stored]

theorem Sound.stored (sound : graph.Sound) : graph.stored.Sound :=
  sound.copy.withRecords graph.normalizer none graph.metadata

/-- A graph comes back from its snapshot. -/
theorem Sound.toGraph_ofGraph (sound : graph.Sound) :
    (Snapshot.ofGraph graph).toGraph = .ok graph.stored := by
  have described : (Snapshot.ofGraph graph).functions.map FunctionSnapshot.toDraft =
      graph.drafts fun block => (BlockSnapshot.ofBlock block).toBlock := by
    rw [Snapshot.ofGraph, drafts, List.map_map]
    refine List.map_congr_left fun function _ => ?_
    simp only [Function.comp_apply, FunctionSnapshot.ofFunction, FunctionSnapshot.toDraft,
      List.map_map]
    rfl
  rw [Snapshot.toGraph, described]
  refine (sound.addFunctions_drafts sound.replaceable_toBlock false).trans ?_
  rw [sound.changed_toBlock, sound.stored.wire_eq]

/-- What comes back from a file equals the graph. -/
theorem Sound.stored_same (sound : graph.Sound) : graph.stored.same graph = true :=
  Alike.same ⟨rfl, fun _ => rfl, fun _ => Iff.rfl, rfl, rfl⟩ sound.stored sound

end Graph

/-! ### Texts of snapshots -/

theorem EdgeKind.decode_name (kind : EdgeKind) (depth : Nat) :
    Json.Decoder.alternative ofName? depth (.ofValue (.text kind.name)) = some kind := by
  refine (congrArg (Option.bind · ofName?) (Json.text?_writtenUnits kind.name)).trans ?_
  cases kind <;> rfl

theorem Edge.decode_toJson (edge : Edge) (depth : Nat) :
    decode (depth + 1) (.ofValue edge.toJson) = some edge := by
  refine Json.Decoder.known_fields rfl (by decide) fun record holds => ?_
  rw [holds.required "from" (by simp) (Json.Decoder.word_ofValue depth edge.source),
    holds.required "to" (by simp) (Json.Decoder.word_ofValue depth edge.target),
    holds.required "edge_type" (by simp) (edge.kind.decode_name depth)]
  rfl

theorem Edge.decodeAll_toJson (edges : List Edge) (depth : Nat) :
    Json.Decoder.list decode (depth + 2) (.ofValue (.list (edges.map toJson))) = some edges :=
  Json.Decoder.list_ofValue fun edge _ => edge.decode_toJson depth

/-- A block in a file is read back if its table is. -/
theorem BlockSnapshot.decode_toJson {snapshot : BlockSnapshot} {depth : Nat}
    (readsBack : snapshot.metadata.ReadsBack (depth + 1)) :
    decode (depth + 3) (.ofValue snapshot.toJson) = some snapshot := by
  have noLabels : snapshot.labels.isEmpty = true → snapshot.labels.toList = [] := fun none => by
    rw [← List.isEmpty_iff, Std.ExtTreeSet.isEmpty_toList, none]
  refine Json.Decoder.known_presentFields rfl (by decide) fun record holds => ?_
  rw [holds.required "address" (by simp) (Json.Decoder.word_ofValue _ snapshot.address),
    holds.omittable "labels" (by simp) (Json.Decoder.texts_ofValue _ snapshot.labels.toList)
      noLabels,
    holds.required "asm_lines" (by simp) (Json.Decoder.texts_ofValue _ snapshot.lines),
    holds.omittable "asm_memory_addresses" (by simp)
      (Json.Decoder.addresses_ofValue _ snapshot.lineAddresses) List.isEmpty_iff.mp,
    holds.omittable "metadata" (by simp) (Json.Decoder.metadata_ofValue readsBack)
      Std.ExtTreeMap.isEmpty_iff.mp,
    holds.defaulted "edges_out" (by simp) (Edge.decodeAll_toJson snapshot.edgesOut depth),
    holds.defaulted "edges_in" (by simp) (Edge.decodeAll_toJson snapshot.edgesIn depth)]
  exact congrArg (fun labels => some { snapshot with labels })
    (Json.ofList_toList_set snapshot.labels)

/-- Whether the tables of a function and of its blocks are read back from where a file has
them. -/
structure FunctionSnapshot.TablesReadBack (depth : Nat) (snapshot : FunctionSnapshot) : Prop where
  own : snapshot.metadata.ReadsBack (depth + 3)
  blocks : ∀ block ∈ snapshot.blocks, block.metadata.ReadsBack (depth + 1)

/-- A function in a file is read back if its tables are. -/
theorem FunctionSnapshot.decode_toJson {snapshot : FunctionSnapshot} {depth : Nat}
    (readBack : snapshot.TablesReadBack depth) :
    decode (depth + 5) (.ofValue snapshot.toJson) = some snapshot := by
  refine Json.Decoder.known_presentFields rfl (by decide) fun record holds => ?_
  rw [holds.required "address" (by simp) (Json.Decoder.word_ofValue _ snapshot.address),
    holds.optional "name" (by simp) (Json.Decoder.nullable_text_ofValue _ snapshot.name),
    holds.required "is_extern_function" (by simp)
      (Json.Decoder.boolean_ofValue _ snapshot.isExternal),
    holds.omittable "metadata" (by simp) (Json.Decoder.metadata_ofValue readBack.own)
      Std.ExtTreeMap.isEmpty_iff.mp,
    holds.required "blocks" (by simp) (Json.Decoder.list_ofValue fun block member =>
      BlockSnapshot.decode_toJson (readBack.blocks block member))]
  rfl

/-- Whether the tables of a snapshot are read back from where a file has them. -/
structure Snapshot.TablesReadBack (depth : Nat) (snapshot : Snapshot) : Prop where
  own : snapshot.metadata.ReadsBack (depth + 5)
  functions : ∀ function ∈ snapshot.functions, function.TablesReadBack depth

/-- A snapshot in a file is read back if its tables are. -/
theorem Snapshot.decode_toJson {snapshot : Snapshot} {depth : Nat}
    (readBack : snapshot.TablesReadBack depth) :
    decode (depth + 7) (.ofValue snapshot.toJson) = some snapshot := by
  refine Json.Decoder.known_fields rfl (by decide) fun record holds => ?_
  rw [holds.optional "normalizer" (by simp)
      (Json.Decoder.nullable_text_ofValue _ snapshot.normalizer),
    holds.defaulted "metadata" (by simp) (Json.Decoder.metadata_ofValue readBack.own),
    holds.required "functions" (by simp) (Json.Decoder.list_ofValue fun function member =>
      FunctionSnapshot.decode_toJson (readBack.functions function member))]
  rfl

/-! ### Graphs in files -/

namespace Graph

variable {graph : Graph}

/-- Whether the tables of a graph are read back from where a file has them: that of the graph
inside two lists and records, those of functions inside four and those of blocks inside six. -/
structure TablesReadBack (graph : Graph) : Prop where
  own : graph.metadata.ReadsBack (Json.Decoder.nestingLimit - 2)
  functions : ∀ function ∈ graph.functionList,
    function.metadata.ReadsBack (Json.Decoder.nestingLimit - 4)
  blocks : ∀ block ∈ graph.blockList, block.metadata.ReadsBack (Json.Decoder.nestingLimit - 6)

theorem TablesReadBack.ofGraph (readBack : graph.TablesReadBack) :
    (Snapshot.ofGraph graph).TablesReadBack (Json.Decoder.nestingLimit - 7) where
  own := readBack.own
  functions snapshot member := by
    obtain ⟨function, listed, rfl⟩ := List.mem_map.mp member
    refine ⟨readBack.functions function listed, fun written member => ?_⟩
    obtain ⟨block, own, rfl⟩ := List.mem_map.mp member
    obtain ⟨address, _, found⟩ := mem_blocksOf.mp own
    exact readBack.blocks block (AddressMap.mem_contents_of_getElem? found)

/-- A graph comes back from its snapshot: it equals the graph that was saved, and its own
snapshot and file are the same. The file is read as the snapshot that was written. -/
theorem saved_comes_back (reachable : Reachable graph) :
    ∃ next, (Snapshot.ofGraph graph).toGraph = .ok next ∧ next.same graph = true ∧
      Snapshot.ofGraph next = Snapshot.ofGraph graph ∧ next.toText = graph.toText ∧
      (graph.TablesReadBack →
        Snapshot.decode.read graph.toText = some (Snapshot.ofGraph graph) ∧
          ofText graph.toText = .ok next) := by
  have sound := reachable.sound
  refine ⟨graph.stored, sound.toGraph_ofGraph, sound.stored_same, rfl, rfl, fun readBack => ?_⟩
  have read : Snapshot.decode.read graph.toText = some (Snapshot.ofGraph graph) :=
    (Json.Decoder.read_toText _ _).trans (Snapshot.decode_toJson readBack.ofGraph)
  refine ⟨read, ?_⟩
  rw [ofText, read]
  exact sound.toGraph_ofGraph

/-- A function with an empty name, whose block jumps to itself, calls itself and a block that is
not there, and is entered from another one. The block has a label and a note. -/
def openLoop : List FunctionDraft :=
  [⟨none, some "", false, ∅,
    [(((({ Block.new 16 with
        labels := .ofList ["start"]
        lines := ["call"]
        metadata := .ofFields [("note", .text "entry")] }).addOut 16 .normal).addOut 16
          .functionCall).addOut 99 .functionCall).addIn 77 .normal]⟩]

/-- The graph of the function, with edges that wait at both ends. -/
def openGraph : Graph := empty.unlessFails (empty.addFunctions openLoop false)

theorem reachable_openGraph : Reachable openGraph := by
  refine (Reachable.withMetadata ∅).addFunctions false ?_
  refine List.forall_mem_singleton.mpr (List.forall_mem_singleton.mpr ?_)
  exact (((((Block.Built.new 16).fill _ ["call"] [] _).addOut 16 .normal).addOut 16
    .functionCall).addOut 99 .functionCall).addIn 77 .normal

theorem openGraph_tablesReadBack : openGraph.TablesReadBack where
  own := by
    have none : openGraph.metadata.toList = [] := rfl
    rw [Metadata.ReadsBack, none]
    exact fun _ member => absurd member List.not_mem_nil
  functions := by
    have none : ∀ function ∈ openGraph.functionList, function.metadata.toList = [] :=
      List.forall_mem_singleton.mpr rfl
    intro function listed
    rw [Metadata.ReadsBack, none function listed]
    exact fun _ member => absurd member List.not_mem_nil
  blocks := by
    have note : ∀ block ∈ openGraph.blockList, block.metadata.toList = [("note", .text "entry")] :=
      List.forall_mem_singleton.mpr rfl
    intro block listed
    rw [Metadata.ReadsBack, note block listed]
    exact List.forall_mem_singleton.mpr (Json.Value.readsBack_text _ "entry")

/-- The open loop comes back with the edges that wait at both of its ends. -/
theorem openGraph_comes_back :
    openGraph.danglingEdges = [⟨16, 99, .functionCall⟩, ⟨77, 16, .normal⟩] ∧
      ∃ next, (Snapshot.ofGraph openGraph).toGraph = .ok next ∧ next.same openGraph = true ∧
        Snapshot.ofGraph next = Snapshot.ofGraph openGraph ∧ next.toText = openGraph.toText ∧
        Snapshot.decode.read openGraph.toText = some (Snapshot.ofGraph openGraph) ∧
        ofText openGraph.toText = .ok next := by
  obtain ⟨next, loaded, same, again, sameText, read⟩ := saved_comes_back reachable_openGraph
  exact ⟨by decide, next, loaded, same, again, sameText, read openGraph_tablesReadBack⟩

end Graph

end FlowGraph
