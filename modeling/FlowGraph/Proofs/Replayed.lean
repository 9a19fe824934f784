/-
This file proves that a graph comes back from its build script. A script spells the
labels, the lines and the metadata of every block and function, the edges that leave
a block and, of those that enter it, the ones that wait. Put together call by call, the
functions are those of the graph with such blocks, and adding them to a graph without
functions lists the other edges again.
-/

import FlowGraph.Proofs.Exchanged
import FlowGraph.Proofs.ScriptCalls

namespace FlowGraph

/-! ### Tables and sets -/

theorem insertMany_toList_set (members : Std.ExtTreeSet String) :
    (∅ : Std.ExtTreeSet String).insertMany members.toList = members :=
  Std.ExtTreeSet.ofList_eq_insertMany_empty.symm.trans (Json.ofList_toList_set members)

theorem insertMany_toList_table (table : Metadata) :
    (∅ : Metadata).insertMany table.toList = table :=
  Std.ExtTreeMap.ofList_eq_insertMany_empty.symm.trans (Json.ofList_toList_table table)

/-- Entries that are put into the table of something one by one are all in it. -/
theorem foldl_entries {Owner : Type} (fill : Metadata → Owner)
    {put : Owner → String × Json.Value → Owner}
    (each : ∀ table entry, put (fill table) entry = fill (table.insert entry.1 entry.2))
    (entries : List (String × Json.Value)) (table : Metadata) :
    entries.foldl put (fill table) = fill (table.insertMany entries) := by
  induction entries generalizing table with
  | nil => rw [List.foldl_nil, Std.ExtTreeMap.insertMany_nil]
  | cons entry rest inductionHypothesis =>
    rw [List.foldl_cons, each, inductionHypothesis, Std.ExtTreeMap.insertMany_cons]

/-! ### Blocks -/

/-- A block that a script builds before it is wired. -/
def Graph.describedBlock (graph : Graph) (block : Block) : Block :=
  { block with edgesIn := graph.waitingIn block, parent := none }

theorem Graph.leavesWaiting_describedBlock (graph : Graph) :
    graph.LeavesWaiting graph.describedBlock :=
  ⟨fun _ => rfl, fun _ => rfl, fun _ => rfl, fun _ => rfl, fun _ => rfl⟩

namespace BlockCall

theorem foldl_label (texts : List String) (block : Block) :
    (texts.map label).foldl apply block =
      { block with labels := block.labels.insertMany texts } := by
  induction texts generalizing block with
  | nil =>
    rw [Std.ExtTreeSet.insertMany_nil]
    rfl
  | cons text rest inductionHypothesis =>
    rw [List.map_cons, List.foldl_cons, inductionHypothesis, Std.ExtTreeSet.insertMany_cons]
    rfl

/-- Lines are spelled unless there are none. -/
theorem foldl_lines {block : Block} (none : block.lines = []) (texts : List String) :
    (if texts.isEmpty then [] else [lines texts]).foldl apply block =
      { block with lines := texts } := by
  cases texts with
  | nil =>
    show block = _
    rw [← none]
  | cons text rest => rfl

/-- Addresses of lines are spelled unless there are none. -/
theorem foldl_lineAddresses {block : Block} (none : block.lineAddresses = [])
    (addresses : List Address) :
    (if addresses.isEmpty then [] else [lineAddresses addresses]).foldl apply block =
      { block with lineAddresses := addresses } := by
  cases addresses with
  | nil =>
    show block = _
    rw [← none]
  | cons address rest => rfl

theorem foldl_metadata (entries : List (String × Json.Value)) (block : Block) :
    (entries.map fun entry => metadata entry.1 entry.2).foldl apply block =
      { block with metadata := block.metadata.insertMany entries } :=
  List.foldl_map.trans (foldl_entries (fun metadata => { block with metadata }) (fun _ _ => rfl)
    entries block.metadata)

theorem foldl_edgeOut (edges : List Edge) (block : Block) :
    (edges.map fun edge => edgeOut edge.target edge.kind).foldl apply block =
      edges.foldl (fun block edge => block.addOut edge.target edge.kind) block :=
  List.foldl_map

theorem foldl_edgeIn (edges : List Edge) (block : Block) :
    (edges.map fun edge => edgeIn edge.source edge.kind).foldl apply block =
      edges.foldl (fun block edge => block.addIn edge.source edge.kind) block :=
  List.foldl_map

end BlockCall

/-- The calls of a block put it together. -/
theorem BlockScript.build_ofBlock {graph : Graph} {block : Block}
    (own : (graph.describedBlock block).ListsOwnEdges) :
    (ofBlock graph block).build = graph.describedBlock block := by
  have contents : (block.metadata.toList.map fun entry => BlockCall.metadata entry.1 entry.2).foldl
      BlockCall.apply ((if block.lineAddresses.isEmpty then []
        else [BlockCall.lineAddresses block.lineAddresses]).foldl BlockCall.apply
          ((if block.lines.isEmpty then [] else [BlockCall.lines block.lines]).foldl BlockCall.apply
            ((block.labels.toList.map BlockCall.label).foldl BlockCall.apply
              (Block.new block.address)))) =
      { block with edgesOut := [], edgesIn := [], parent := none } := by
    rw [BlockCall.foldl_label, BlockCall.foldl_lines rfl, BlockCall.foldl_lineAddresses rfl,
      BlockCall.foldl_metadata, Block.new, insertMany_toList_set, insertMany_toList_table]
  unfold build ofBlock
  dsimp only
  rw [List.foldl_append, List.foldl_append, List.foldl_append, List.foldl_append,
    List.foldl_append, contents, BlockCall.foldl_edgeOut, BlockCall.foldl_edgeIn]
  exact Block.foldl_addIn_foldl_addOut _ rfl rfl own

/-! ### Functions -/

theorem FunctionCall.foldl_metadata (entries : List (String × Json.Value)) (draft : FunctionDraft) :
    (entries.map fun entry => metadata entry.1 entry.2).foldl apply draft =
      { draft with metadata := draft.metadata.insertMany entries } :=
  List.foldl_map.trans (foldl_entries (fun metadata => { draft with metadata }) (fun _ _ => rfl)
    entries draft.metadata)

/-- The calls of a function put it together. -/
theorem FunctionScript.build_ofFunction {graph : Graph} {function : Function}
    (own : ∀ block ∈ graph.blocksOf function, (graph.describedBlock block).ListsOwnEdges) :
    (ofFunction graph function).build =
      ⟨some function.address, function.name, function.isExternal, function.metadata,
        (graph.blocksOf function).map graph.describedBlock⟩ := by
  have blocks : ((graph.blocksOf function).map (BlockScript.ofBlock graph)).map BlockScript.build =
      (graph.blocksOf function).map graph.describedBlock := by
    rw [List.map_map]
    exact List.map_congr_left fun block member => BlockScript.build_ofBlock (own block member)
  have named : (function.name.toList.map FunctionCall.name ++
      if function.isExternal then [FunctionCall.markExternal] else []).foldl FunctionCall.apply
        { FunctionDraft.empty with address := some function.address } =
      ⟨some function.address, function.name, function.isExternal, ∅, []⟩ := by
    cases function.name <;> cases function.isExternal <;> rfl
  unfold build ofFunction
  dsimp only
  rw [List.foldl_append, named, FunctionCall.foldl_metadata, insertMany_toList_table, blocks]
  rfl

namespace Graph

variable {graph : Graph}

/-- The functions of a script are those of the graph. -/
theorem Laid.functions_buildScript (laid : graph.Laid) :
    (BuildScript.ofGraph graph).functions.map FunctionScript.build =
      graph.drafts graph.describedBlock := by
  have own := (laid.replaceable graph.leavesWaiting_describedBlock).ownEdges
  rw [BuildScript.ofGraph, List.map_map]
  refine List.map_congr_left fun function _ =>
    FunctionScript.build_ofFunction fun block member => ?_
  obtain ⟨address, _, found⟩ := mem_blocksOf.mp member
  exact own block (AddressMap.mem_contents_of_getElem? found)

theorem start_buildScript (graph : Graph) : (BuildScript.ofGraph graph).start = graph.bare := by
  have table : Metadata.ofFields graph.metadata.toList = graph.metadata :=
    Json.ofList_toList_table graph.metadata
  exact congrArg (fun metadata =>
    { Graph.empty with normalizer := graph.normalizer, metadata }) table

/-! ### Graphs -/

/-- Whether the values among the metadata of a graph are read back from their texts. -/
structure ValuesReadBack (graph : Graph) : Prop where
  own : graph.metadata.ReadsBack Json.Decoder.nestingLimit
  functions : ∀ function ∈ graph.functionList,
    function.metadata.ReadsBack Json.Decoder.nestingLimit
  blocks : ∀ block ∈ graph.blockList, block.metadata.ReadsBack Json.Decoder.nestingLimit

theorem ValuesReadBack.ofBlock (readBack : graph.ValuesReadBack) {block : Block}
    (listed : block ∈ graph.blockList) : (BlockScript.ofBlock graph block).ReadsBack := by
  rw [BlockScript.ReadsBack, BlockScript.ofBlock]
  simp only [List.forall_mem_append, List.forall_mem_map]
  refine ⟨⟨⟨⟨⟨fun _ _ => trivial, ?_⟩, ?_⟩, readBack.blocks block listed⟩, fun _ _ => trivial⟩,
    fun _ _ => trivial⟩
  · cases block.lines with
    | nil => exact List.forall_mem_nil _
    | cons line rest => exact List.forall_mem_singleton.mpr trivial
  · cases block.lineAddresses with
    | nil => exact List.forall_mem_nil _
    | cons address rest => exact List.forall_mem_singleton.mpr trivial

theorem ValuesReadBack.ofFunction (readBack : graph.ValuesReadBack) {function : Function}
    (listed : function ∈ graph.functionList) :
    (FunctionScript.ofFunction graph function).ReadsBack where
  own := by
    rw [FunctionScript.ofFunction]
    simp only [List.forall_mem_append, List.forall_mem_map]
    refine ⟨⟨fun _ _ => trivial, ?_⟩, readBack.functions function listed⟩
    cases function.isExternal with
    | false => exact List.forall_mem_nil _
    | true => exact List.forall_mem_singleton.mpr trivial
  blocks := List.forall_mem_map.mpr fun block member => by
    obtain ⟨address, _, found⟩ := mem_blocksOf.mp member
    exact readBack.ofBlock (AddressMap.mem_contents_of_getElem? found)

theorem ValuesReadBack.ofGraph (readBack : graph.ValuesReadBack) :
    (BuildScript.ofGraph graph).ReadsBack where
  own := readBack.own
  functions := List.forall_mem_map.mpr fun _ listed => readBack.ofFunction listed

/-- The graph that a build script builds. -/
def replayed (graph : Graph) : Graph := (graph.changed graph.describedBlock).wire

/-- No functions are added by leaving a sound graph as it is. -/
theorem Sound.addFunctions_nil (sound : graph.Sound) (override : Bool) :
    graph.addFunctions [] override = .ok graph := by
  refine addFunctions_eq_ok_iff.mpr ⟨[], ?_, sound.wire_eq⟩
  exact
    { resolved := rfl
      functionsFree := List.forall_mem_nil _
      functionsDistinct := List.nodup_nil
      blocksFree := List.forall_mem_nil _
      blocksDistinct := List.nodup_nil
      matchesLines := List.forall_mem_nil _ }

theorem Laid.rebuild?_buildScript (laid : graph.Laid) (readBack : graph.ValuesReadBack) :
    Script.rebuild? graph.buildScript = some graph.replayed := by
  have functions := laid.functions_buildScript
  have added : graph.bare.addFunctions (graph.drafts graph.describedBlock) false =
      .ok graph.replayed :=
    laid.addFunctions_drafts (laid.replaceable graph.leavesWaiting_describedBlock) false
  rw [buildScript, BuildScript.rebuild?_text readBack.ofGraph, start_buildScript]
  cases spelled : (BuildScript.ofGraph graph).functions with
  | nil =>
    -- such a script has no call that adds functions, which is like adding none
    have bareSound : graph.bare.Sound := sound_of_empty
    rw [spelled, List.map_nil] at functions
    rw [← functions, bareSound.addFunctions_nil] at added
    exact congrArg some (Except.ok.inj added)
  | cons function rest =>
    rw [spelled] at functions
    rw [functions, added]
    rfl

theorem Sound.replayed_alike (sound : graph.Sound) : graph.replayed.Alike graph := by
  refine (wire_alike _).trans ⟨rfl, fun address => ?_, fun edge => ?_, rfl, rfl⟩
  · rw [getElem?_changed, Option.map_map]
    rfl
  · exact sound.mem_listedEdges_changed graph.leavesWaiting_describedBlock

/-- The text of a build script, read as calls and carried out, builds a graph that equals the one it
was written for, as long as the values among the metadata are read back. Everything but the order
of edges is the same, and so are the edges that wait. -/
theorem script_rebuilds (reachable : Reachable graph) (readBack : graph.ValuesReadBack) :
    ∃ next, Script.rebuild? graph.buildScript = some next ∧ next.same graph = true ∧
      next.Alike graph ∧ ∀ edge, edge ∈ next.danglingEdges ↔ edge ∈ graph.danglingEdges := by
  have sound := reachable.sound
  have alike := sound.replayed_alike
  have replaceable := sound.replaceable graph.leavesWaiting_describedBlock
  exact ⟨graph.replayed, sound.rebuild?_buildScript readBack,
    alike.same (sound.changed replaceable).wire sound, alike,
    fun edge => alike.mem_danglingEdges_iff⟩

/-- The open loop beside a function that has no blocks, with a note that consists of marks. -/
def spelledGraph : Graph :=
  { openGraph.unlessFails (openGraph.addFunctions
      [⟨some 32, some "", true, .ofFields [("", .text "\"]\n")], []⟩] false) with
    normalizer := some "base"
    tokens := none
    metadata := .ofFields [("\\", .text "]);")] }

theorem reachable_spelledGraph : Reachable spelledGraph := by
  refine .withRecords (some "base") none _ (reachable_openGraph.addFunctions false ?_)
  exact List.forall_mem_singleton.mpr (List.forall_mem_nil _)

theorem spelledGraph_valuesReadBack : spelledGraph.ValuesReadBack where
  own := by
    have note : spelledGraph.metadata.toList = [("\\", .text "]);")] := rfl
    rw [Metadata.ReadsBack, note]
    exact List.forall_mem_singleton.mpr (Json.Value.readsBack_text _ "]);")
  functions := by
    have notes : spelledGraph.functionList.map (fun function => function.metadata.toList) =
        [[], [("", .text "\"]\n")]] := rfl
    have each : ∀ entries ∈ spelledGraph.functionList.map fun function => function.metadata.toList,
        ∀ entry ∈ entries, entry.2.ReadsBack Json.Decoder.nestingLimit := by
      rw [notes]
      refine List.forall_mem_cons.mpr ⟨List.forall_mem_nil _, ?_⟩
      exact List.forall_mem_singleton.mpr
        (List.forall_mem_singleton.mpr (Json.Value.readsBack_text _ "\"]\n"))
    exact fun function listed => each _ (List.mem_map_of_mem listed)
  blocks := by
    have note : ∀ block ∈ spelledGraph.blockList,
        block.metadata.toList = [("note", .text "entry")] := List.forall_mem_singleton.mpr rfl
    intro block listed
    rw [Metadata.ReadsBack, note block listed]
    exact List.forall_mem_singleton.mpr (Json.Value.readsBack_text _ "entry")

/-- The loop comes back with its edges that wait, and the function beside it without blocks. -/
theorem spelledGraph_rebuilt :
    spelledGraph.danglingEdges = [⟨16, 99, .functionCall⟩, ⟨77, 16, .normal⟩] ∧
      spelledGraph.functionList.map Function.blocks = [[16], []] ∧
      ∃ next, Script.rebuild? spelledGraph.buildScript = some next ∧
        next.same spelledGraph = true ∧ next.Alike spelledGraph ∧
        ∀ edge, edge ∈ next.danglingEdges ↔ edge ∈ spelledGraph.danglingEdges :=
  ⟨by decide, by decide, script_rebuilds reachable_spelledGraph spelledGraph_valuesReadBack⟩

end Graph

end FlowGraph
