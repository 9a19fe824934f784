/-
This file proves what compacting a batch of files leaves behind. A result goes to
the file that is named after its input, without the folder and the endings of the
input, so two results meet if and only if these stems are equal. Where they meet,
the file holds the result of the last input and those before it are lost. No
result meets the file of the shared tokens, and no other file changes.
-/

import FlowGraph.Proofs.Paths
import FlowGraph.Proofs.Reloaded
import FlowGraph.Proofs.SharedTokens

namespace FlowGraph.FileOperation

variable {store after : Files} {inputs written : List String} {folder normalizer : String}
variable {options : CompactOptions} {compacts : List Compact} {pool : Pool}

/-! ### Names of results -/

/-- The path of the result of an input. -/
def outputPath (folder input : String) : String :=
  Files.join folder (outputStem input ++ ".mem.json")

theorem undivided_withoutEnding {text : String} (undivided : '/' ∉ text.toList)
    (ending : String) : '/' ∉ (Files.withoutEnding text ending).toList := by
  rw [Files.withoutEnding]
  split
  · rw [String.toList_ofList]
    exact fun member => undivided (List.mem_of_mem_take member)
  · exact undivided

theorem undivided_fileName? {path name : String} (named : Files.fileName? path = some name) :
    '/' ∉ name.toList := by
  have last : (Files.names path).getLast? = some name := by
    rw [Files.fileName?] at named
    split at named
    · cases named
    · exact named
  exact Files.not_mem_of_mem_segments (List.mem_of_mem_filter (List.mem_of_getLast? last))

theorem undivided_outputStem (input : String) : '/' ∉ (outputStem input).toList := by
  have name : '/' ∉ ((Files.fileName? input).getD "cfg").toList := by
    cases named : Files.fileName? input with
    | none => decide
    | some name => exact undivided_fileName? named
  exact undivided_withoutEnding (undivided_withoutEnding name _) _

theorem entry_output (input : String) : Files.Entry (outputStem input ++ ".mem.json") := by
  have long : 9 ≤ (outputStem input ++ ".mem.json").length := by
    rw [String.length_append]
    exact Nat.le_add_left _ _
  refine ⟨?_, ?_, ?_, ?_⟩
  · rw [String.toList_append, List.mem_append, not_or]
    exact ⟨undivided_outputStem input, by decide⟩
  all_goals
    intro same
    rw [same] at long
    exact absurd long (by decide)

theorem entry_tokensFile : Files.Entry tokensFile where
  undivided := by decide
  nonempty := by decide
  notHere := by decide
  notAround := by decide

/-- No result is named like the file of the shared tokens. -/
theorem output_ne_tokensFile (input : String) : outputStem input ++ ".mem.json" ≠ tokensFile := by
  intro same
  have ends : ".mem.json".toList <:+ tokensFile.toList :=
    ⟨(outputStem input).toList, by rw [← String.toList_append, same]⟩
  exact absurd ends (by decide)

theorem outputPath_eq_iff {input other : String} :
    outputPath folder input = outputPath folder other ↔ outputStem input = outputStem other :=
  (Files.join_eq_iff folder (entry_output input) (entry_output other)).trans
    (String.append_left_inj _)

/-- Where a path of a result leads, only the results with the same path are written. -/
theorem place?_outputPath_ne {input other : String} {place : List String}
    (there : store.place? (outputPath folder input) = some place)
    (different : outputPath folder other ≠ outputPath folder input) :
    store.place? (outputPath folder other) ≠ some place := by
  intro same
  have named := (Files.place?_join_inj folder (entry_output input) (entry_output other) there).mp
    same
  exact different (congrArg (Files.join folder) named.symm)

/-! ### One result after another -/

theorem writeCompacts_cons_eq_ok_iff {path : String} {compact : Compact}
    {rest : List (String × Compact)} :
    writeCompacts pool store ((path, compact) :: rest) = (.ok (), after) ↔
      ∃ middle, store.writeText path (compact.toText pool) = .ok middle ∧
        writeCompacts pool middle rest = (.ok (), after) := by
  rw [writeCompacts, Files.writeCompact]
  cases store.writeText path (compact.toText pool) with
  | error failure => simp [Except.mapError]
  | ok middle => simp [Except.mapError]

theorem folders_of_writeCompacts {entries : List (String × Compact)}
    (wrote : writeCompacts pool store entries = (.ok (), after)) :
    after.folders = store.folders := by
  induction entries generalizing store with
  | nil =>
    cases wrote
    rfl
  | cons entry rest inductionHypothesis =>
    obtain ⟨middle, first, others⟩ := writeCompacts_cons_eq_ok_iff.mp wrote
    exact (inductionHypothesis others).trans (Files.folders_of_writeText first)

/-- Files elsewhere stay as they are. -/
theorem getElem?_of_writeCompacts {entries : List (String × Compact)}
    (wrote : writeCompacts pool store entries = (.ok (), after)) {place : List String}
    (elsewhere : ∀ entry ∈ entries, store.place? entry.1 ≠ some place) :
    after.files[place]? = store.files[place]? := by
  induction entries generalizing store with
  | nil =>
    cases wrote
    rfl
  | cons entry rest inductionHypothesis =>
    obtain ⟨middle, first, others⟩ := writeCompacts_cons_eq_ok_iff.mp wrote
    rw [List.forall_mem_cons] at elsewhere
    have folders := Files.folders_of_writeText first
    exact (inductionHypothesis others fun other member =>
        (Files.place?_congr folders other.1).trans_ne (elsewhere.2 other member)).trans
      (Files.getElem?_of_writeText first elsewhere.1)

/-- A file holds the last compact graph that is written to its place. -/
theorem readText_of_writeCompacts {path : String} {compact : Compact}
    {earlier later : List (String × Compact)}
    (wrote : writeCompacts pool store (earlier ++ (path, compact) :: later) = (.ok (), after))
    (last : ∀ {place : List String}, store.place? path = some place →
      ∀ entry ∈ later, store.place? entry.1 ≠ some place) :
    after.readText path = .ok (compact.toText pool) := by
  induction earlier generalizing store with
  | nil =>
    obtain ⟨middle, own, others⟩ := writeCompacts_cons_eq_ok_iff.mp wrote
    have folders := Files.folders_of_writeText own
    have kept : after.readText path = middle.readText path := by
      refine Files.readText_congr (folders_of_writeCompacts others) fun place there =>
        getElem?_of_writeCompacts others fun entry member => ?_
      rw [Files.place?_congr folders] at there ⊢
      exact last there entry member
    exact kept.trans (Files.readText_of_writeText own)
  | cons entry rest inductionHypothesis =>
    obtain ⟨middle, first, others⟩ := writeCompacts_cons_eq_ok_iff.mp wrote
    have folders := Files.folders_of_writeText first
    refine inductionHypothesis others fun there other member => ?_
    rw [Files.place?_congr folders] at there ⊢
    exact last there other member

/-! ### What is compacted -/

theorem reachable_of_readGraph {path : String} {graph : Graph}
    (read : store.readGraph path = .ok graph) : graph.Reachable := by
  obtain ⟨text, _, parsed⟩ := Outcome.bind_eq_ok_iff.mp read
  rw [Graph.ofText] at parsed
  split at parsed
  · cases parsed
  · exact .ofSnapshot parsed

theorem exists_of_compactInputs
    (compacted : compactInputs store inputs normalizer options = .ok (compacts, pool)) :
    ∃ found graphs, List.Forall₂ (fun input graph => store.readGraph input = .ok graph)
        inputs graphs ∧
      Compact.ofGraphs [.empty] (some found) 0 options graphs = (.ok compacts, pool) := by
  obtain ⟨found, _, rest⟩ := Outcome.bind_eq_ok_iff.mp compacted
  obtain ⟨graphs, read, rest⟩ := Outcome.bind_eq_ok_iff.mp rest
  obtain ⟨results, succeeds, same⟩ := Outcome.bind_eq_ok_iff.mp rest
  obtain ⟨rfl, rfl⟩ := Prod.mk.inj (Except.ok.inj same)
  exact ⟨found, graphs, Outcome.mapM_eq_ok_iff.mp (Outcome.mapError_eq_ok_iff.mp read),
    Prod.ext (Outcome.mapError_eq_ok_iff.mp succeeds) rfl⟩

theorem length_of_compactInputs
    (compacted : compactInputs store inputs normalizer options = .ok (compacts, pool)) :
    compacts.length = inputs.length := by
  obtain ⟨found, graphs, read, built⟩ := exists_of_compactInputs compacted
  exact (Compact.length_of_ofGraphs built).trans read.length_eq.symm

/-- The results are compact graphs over the shared dictionary. -/
theorem obtained_of_compactInputs
    (compacted : compactInputs store inputs normalizer options = .ok (compacts, pool))
    {compact : Compact} (member : compact ∈ compacts) :
    Compact.Obtained compact ∧ compact.tokens = .shared 0 := by
  obtain ⟨found, graphs, read, built⟩ := exists_of_compactInputs compacted
  obtain ⟨rank, bound, rfl⟩ := List.mem_iff_getElem.mp member
  have inside : rank < graphs.length := (Compact.length_of_ofGraphs built) ▸ bound
  obtain ⟨before, later, _, own, _⟩ := Compact.exists_ofGraph_of_ofGraphs built
    (List.getElem?_eq_getElem inside) (List.getElem?_eq_getElem bound)
  have reachable : graphs[rank].Reachable :=
    reachable_of_readGraph (read.get (read.length_eq ▸ inside) inside)
  exact ⟨.ofGraph reachable own, Compact.tokens_of_ofGraph reachable own⟩

/-! ### The whole batch -/

/-- Whether a file holds a compact graph: its text is there, and if its tables are read back and
its counts are machine words, an equal graph that gives the same answers is read. -/
structure Holds (store : Files) (path : String) (pool : Pool) (compact : Compact) : Prop where
  text : store.readText path = .ok (compact.toText pool)
  loads : compact.functionCount < 2 ^ 64 → compact.blockCount < 2 ^ 64 → compact.TablesReadBack →
    ∃ next, store.readCompact path = .ok next ∧ next.same pool compact = true ∧
      next.AnswersLike pool compact

theorem holds_of_readText {path : String} {compact : Compact} (obtained : Compact.Obtained compact)
    (text : store.readText path = .ok (compact.toText pool)) : Holds store path pool compact where
  text := text
  loads functions blocks readBack := by
    refine ⟨compact.owning pool, ?_, compact.same_owning pool, compact.answersLike_owning pool⟩
    rw [Files.readCompact, text]
    refine (Outcome.ok_bind _ _).trans ?_
    rw [Compact.ofText, Compact.toText, Json.Decoder.read_toText,
      Compact.decode_toJson obtained.storable functions blocks readBack]

/-- Whether a result is the last of those that are written to a path. -/
structure LastResult (written : List String) (compacts : List Compact) (path : String) (rank : Nat)
    (compact : Compact) : Prop where
  placed : written[rank]? = some path
  result : compacts[rank]? = some compact
  last : ∀ later : Nat, rank < later → written[later]? ≠ some path

/-- What is promised of a batch of results and of the files they are written to. -/
structure BatchFiles (store : Files) (inputs : List String) (folder : String)
    (compacts : List Compact) (pool : Pool) (written : List String) (after : Files) : Prop where
  results : compacts.length = inputs.length
  shared : ∀ compact ∈ compacts, compact.tokens = .shared 0
  paths : written = inputs.map (outputPath folder)
  distinct : written.Nodup ↔ (inputs.map outputStem).Nodup
  holds : ∀ path ∈ written, ∃ rank compact, LastResult written compacts path rank compact ∧
    Holds after path pool compact
  kept : (inputs.map outputStem).Nodup → ∀ {rank : Nat} {path : String} {compact : Compact},
    written[rank]? = some path → compacts[rank]? = some compact → Holds after path pool compact
  tokens : ∃ text, after.readText (Files.join folder tokensFile) = .ok text ∧
    Dictionary.decode.read text = some ((TokenStore.shared 0).contents pool)
  others : ∀ {place : List String}, (∀ path ∈ written, after.place? path ≠ some place) →
    after.place? (Files.join folder tokensFile) ≠ some place →
      after.files[place]? = store.files[place]?

theorem nodup_outputPaths (folder : String) (inputs : List String) :
    (inputs.map (outputPath folder)).Nodup ↔ (inputs.map outputStem).Nodup := by
  refine List.pairwise_map.trans (Iff.trans ?_ List.pairwise_map.symm)
  simp only [Ne, outputPath_eq_iff]

/-- A member of a list has a last occurrence. -/
theorem exists_last {Item : Type} {items : List Item} {item : Item} (member : item ∈ items) :
    ∃ front back, items = front ++ item :: back ∧ item ∉ back := by
  obtain ⟨back, front, split, missing⟩ := List.eq_append_cons_of_mem (List.mem_reverse.mpr member)
  refine ⟨front.reverse, back.reverse, ?_, fun later => missing (List.mem_reverse.mp later)⟩
  rw [← items.reverse_reverse, split, List.reverse_append, List.reverse_cons, List.append_assoc]
  rfl

theorem lastResult_of_append {front back : List String} {path : String} (missing : path ∉ back)
    (inside : front.length < compacts.length) :
    LastResult (front ++ path :: back) compacts path front.length compacts[front.length] where
  placed := by
    rw [List.getElem?_append_right (Nat.le_refl _), Nat.sub_self, List.getElem?_cons_zero]
  result := List.getElem?_eq_getElem inside
  last later beyond there := by
    obtain ⟨distance, rfl⟩ := Nat.exists_eq_add_of_lt beyond
    rw [List.getElem?_append_right (by omega), Nat.add_assoc, Nat.add_sub_cancel_left,
      List.getElem?_cons_succ] at there
    exact missing (List.mem_of_getElem? there)

/-- If no two paths are equal, every result is the last one at its path. -/
theorem LastResult.eq_of_nodup {path : String} {rank lastRank : Nat} {compact lastCompact : Compact}
    (last : LastResult written compacts path lastRank lastCompact) (distinct : written.Nodup)
    (placed : written[rank]? = some path) (result : compacts[rank]? = some compact) :
    compact = lastCompact := by
  obtain ⟨bound, _⟩ := List.getElem?_eq_some_iff.mp placed
  obtain rfl : rank = lastRank :=
    (List.getElem?_inj bound distinct).mp (placed.trans last.placed.symm)
  exact Option.some.inj (result.symm.trans last.result)

/-- The file at the path of a result holds the last result with this path. -/
theorem exists_readText_of_writeCompacts
    (wrote : writeCompacts pool store ((inputs.map (outputPath folder)).zip compacts) =
      (.ok (), after))
    (lengths : compacts.length = inputs.length) {path : String}
    (member : path ∈ inputs.map (outputPath folder)) :
    ∃ rank compact, LastResult (inputs.map (outputPath folder)) compacts path rank compact ∧
      after.readText path = .ok (compact.toText pool) := by
  obtain ⟨front, back, paths, missing⟩ := exists_last member
  have inside : front.length < compacts.length := by
    have counted := congrArg List.length paths
    rw [List.length_map, List.length_append, List.length_cons] at counted
    omega
  refine ⟨front.length, compacts[front.length], paths ▸ lastResult_of_append missing inside, ?_⟩
  obtain ⟨input, _, rfl⟩ := List.mem_map.mp member
  have split : compacts = compacts.take front.length ++
      compacts[front.length] :: compacts.drop (front.length + 1) := by
    rw [← List.drop_eq_getElem_cons inside, List.take_append_drop]
  have taken : front.length = (compacts.take front.length).length :=
    (List.length_take_of_le (Nat.le_of_lt inside)).symm
  rw [paths, split, List.zip_append taken, List.zip_cons_cons] at wrote
  refine readText_of_writeCompacts wrote fun there entry among => ?_
  have listed : entry.1 ∈ back := (List.of_mem_zip among).1
  have path : entry.1 ∈ inputs.map (outputPath folder) := by
    rw [paths]
    exact List.mem_append_right _ (List.mem_cons_of_mem _ listed)
  obtain ⟨other, _, named⟩ := List.mem_map.mp path
  rw [← named] at listed ⊢
  exact place?_outputPath_ne there fun same => missing (same ▸ listed)

/-- What compacting a batch of files does, when it succeeds. -/
theorem exists_of_compactFiles
    (succeeds : compactFiles store inputs folder normalizer options = (.ok written, after)) :
    ∃ compacts pool made middle,
      compactInputs store inputs normalizer options = .ok (compacts, pool) ∧
      store.makeFolders folder = .ok made ∧
      writeCompacts pool made ((inputs.map (outputPath folder)).zip compacts) =
        (.ok (), middle) ∧
      middle.writeText (Files.join folder tokensFile)
        ((TokenStore.shared 0).contents pool).toJson.toText = .ok after ∧
      written = inputs.map (outputPath folder) := by
  rw [compactFiles] at succeeds
  split at succeeds
  · cases succeeds
  · rename_i compacts pool compacted
    split at succeeds
    · cases succeeds
    · rename_i made making
      dsimp only at succeeds
      split at succeeds
      · cases succeeds
      · rename_i middle wrote
        split at succeeds
        · cases succeeds
        · rename_i last tokens
          cases succeeds
          exact ⟨compacts, pool, made, middle, compacted, making, wrote, tokens, rfl⟩

/-- Writing the shared tokens changes no result. -/
theorem readText_beside_tokens {text : String}
    (tokens : store.writeText (Files.join folder tokensFile) text = .ok after) (input : String) :
    after.readText (outputPath folder input) = store.readText (outputPath folder input) := by
  refine Files.readText_congr (Files.folders_of_writeText tokens) fun place there =>
    Files.getElem?_of_writeText tokens fun same => ?_
  exact output_ne_tokensFile input
    ((Files.place?_join_inj folder (entry_output input) entry_tokensFile there).mp same)

/-- After a batch the path of a result holds the last result that has this path. -/
theorem exists_holds {made middle : Files} {text : String}
    (compacted : compactInputs store inputs normalizer options = .ok (compacts, pool))
    (wrote : writeCompacts pool made ((inputs.map (outputPath folder)).zip compacts) =
      (.ok (), middle))
    (tokens : middle.writeText (Files.join folder tokensFile) text = .ok after) {path : String}
    (member : path ∈ inputs.map (outputPath folder)) :
    ∃ rank compact, LastResult (inputs.map (outputPath folder)) compacts path rank compact ∧
      Holds after path pool compact := by
  obtain ⟨rank, compact, last, written⟩ :=
    exists_readText_of_writeCompacts wrote (length_of_compactInputs compacted) member
  obtain ⟨input, _, rfl⟩ := List.mem_map.mp member
  have obtained := (obtained_of_compactInputs compacted (List.mem_of_getElem? last.result)).1
  exact ⟨rank, compact, last,
    holds_of_readText obtained ((readText_beside_tokens tokens input).trans written)⟩

/-- Compacting a batch of files returns one path for each input, named after it. The paths are
pairwise different if and only if the names of the inputs are, without their endings, and then no
result is lost. In any case a path holds the last result that was written to it, and the shared
tokens are in a file of their own. -/
theorem compactFiles_keeps_last
    (succeeds : compactFiles store inputs folder normalizer options = (.ok written, after)) :
    ∃ compacts pool, compactInputs store inputs normalizer options = .ok (compacts, pool) ∧
      BatchFiles store inputs folder compacts pool written after := by
  obtain ⟨compacts, pool, made, middle, compacted, making, wrote, tokens, rfl⟩ :=
    exists_of_compactFiles succeeds
  have holds {path : String} (member : path ∈ inputs.map (outputPath folder)) :=
    exists_holds compacted wrote tokens member
  have folders := Files.folders_of_writeText tokens
  have foldersThen := folders_of_writeCompacts wrote
  refine ⟨compacts, pool, compacted, length_of_compactInputs compacted,
    fun compact member => (obtained_of_compactInputs compacted member).2, rfl,
    nodup_outputPaths folder inputs, fun path member => holds member, ?_,
    ⟨_, Files.readText_of_writeText tokens, Dictionary.read_toJson _⟩, ?_⟩
  · intro distinct rank path compact found result
    obtain ⟨lastRank, lastCompact, last, held⟩ := holds (List.mem_of_getElem? found)
    obtain rfl := last.eq_of_nodup ((nodup_outputPaths folder inputs).mpr distinct) found result
    exact held
  · intro place results shared
    have elsewhere : ∀ entry ∈ (inputs.map (outputPath folder)).zip compacts,
        made.place? entry.1 ≠ some place := fun entry member => by
      have different := results entry.1 (List.of_mem_zip member).1
      rwa [Files.place?_congr folders, Files.place?_congr foldersThen] at different
    rw [Files.place?_congr folders] at shared
    rw [Files.getElem?_of_writeText tokens shared, getElem?_of_writeCompacts wrote elsewhere,
      Files.files_of_makeFolders making]

/-! ### Two small batches -/

/-- A graph with one block. -/
def blockText : String :=
  "\x7b\"functions\":[\x7b\"address\":16,\"is_extern_function\":false,\"blocks\":" ++
    "[\x7b\"address\":16,\"asm_lines\":[\"nop\"]\x7d]\x7d]\x7d"

/-- A graph without blocks. -/
def noBlockText : String := "\x7b\"functions\":[]\x7d"

/-- Both graphs in files of different folders, the second one also under the name of the first. -/
def graphFiles : Files :=
  ((Files.empty.put "a/x.json" ⟨blockText, false⟩).put "b/x.json" ⟨noBlockText, false⟩).put
    "b/y.json.zst" ⟨noBlockText, true⟩

/-- What compacting a batch of these files leads to. -/
def graphFilesRun (inputs : List String) : Outcome (List String) :=
  compactFiles graphFiles inputs "out" "base" ⟨false, false⟩

/-- Under different names both results are kept. -/
theorem graphFiles_keeps_both :
    graphFilesRun ["a/x.json", "b/y.json.zst"] =
        (.ok ["out/x.mem.json", "out/y.mem.json"],
          (graphFilesRun ["a/x.json", "b/y.json.zst"]).2) ∧
      ∃ compacts pool, compactInputs graphFiles ["a/x.json", "b/y.json.zst"] "base"
          ⟨false, false⟩ = .ok (compacts, pool) ∧
        BatchFiles graphFiles ["a/x.json", "b/y.json.zst"] "out" compacts pool
          ["out/x.mem.json", "out/y.mem.json"]
          (graphFilesRun ["a/x.json", "b/y.json.zst"]).2 := by
  have succeeds : graphFilesRun ["a/x.json", "b/y.json.zst"] =
      (.ok ["out/x.mem.json", "out/y.mem.json"],
        (graphFilesRun ["a/x.json", "b/y.json.zst"]).2) := Prod.ext (by decide +kernel) rfl
  exact ⟨succeeds, compactFiles_keeps_last succeeds⟩

/-- Whether the first of two results has a block, and the second one has nothing. -/
def onlyFirstHasBlocks : List Compact → Bool
  | [first, second] => first.blockCount == 1 && second.blockCount == 0 &&
      second.functionCount == 0 && second.metadata.toList.isEmpty &&
      second.functionMetadata.isEmpty && second.blockMetadata.isEmpty
  | _ => false

theorem tablesReadBack_of_isEmpty {compact : Compact} (own : compact.metadata.toList = [])
    (functions : compact.functionMetadata = []) (blocks : compact.blockMetadata = []) :
    compact.TablesReadBack where
  own := fun _ member => nomatch own ▸ member
  functions := fun _ member => nomatch functions ▸ member
  blocks := fun _ member => nomatch blocks ▸ member

theorem blockCount_eq_of_same {left right : Compact} (same : left.same pool right = true) :
    left.blockCount = right.blockCount := by
  simp only [Compact.same, Bool.and_eq_true, beq_iff_eq] at same
  rw [Compact.blockCount, same.1.1.1.1.1.1.2, Compact.blockCount]

/-- Of two graphs under the same name only the first one has blocks. -/
theorem exists_results_graphFiles (compacted : compactInputs graphFiles ["a/x.json", "b/x.json"]
      "base" ⟨false, false⟩ = .ok (compacts, pool)) :
    ∃ first second, compacts = [first, second] ∧ first.blockCount = 1 ∧ second.blockCount = 0 ∧
      second.functionCount = 0 ∧ second.TablesReadBack := by
  have tested : (compactInputs graphFiles ["a/x.json", "b/x.json"] "base"
      ⟨false, false⟩).toOption.any (fun results => onlyFirstHasBlocks results.1) = true := by
    decide +kernel
  rw [compacted] at tested
  obtain ⟨first, second, rfl⟩ := List.length_eq_two.mp (length_of_compactInputs compacted)
  replace tested : onlyFirstHasBlocks [first, second] = true := tested
  simp only [onlyFirstHasBlocks, Bool.and_eq_true, beq_iff_eq, List.isEmpty_iff] at tested
  obtain ⟨⟨⟨⟨⟨oneBlock, noBlock⟩, noFunction⟩, own⟩, functions⟩, blocks⟩ := tested
  exact ⟨first, second, rfl, oneBlock, noBlock, noFunction,
    tablesReadBack_of_isEmpty own functions blocks⟩

/-- Under the same name the first result is lost: both paths are equal, and what is read there is
the second one, which has no blocks. -/
theorem graphFiles_loses_first :
    ∃ first second pool after next,
      compactInputs graphFiles ["a/x.json", "b/x.json"] "base" ⟨false, false⟩ =
        .ok ([first, second], pool) ∧
      compactFiles graphFiles ["a/x.json", "b/x.json"] "out" "base" ⟨false, false⟩ =
        (.ok ["out/x.mem.json", "out/x.mem.json"], after) ∧
      after.readCompact "out/x.mem.json" = .ok next ∧
      first.blockCount = 1 ∧ next.blockCount = 0 ∧ next.same pool first = false := by
  have succeeds : graphFilesRun ["a/x.json", "b/x.json"] =
      (.ok ["out/x.mem.json", "out/x.mem.json"],
        (graphFilesRun ["a/x.json", "b/x.json"]).2) := Prod.ext (by decide +kernel) rfl
  obtain ⟨compacts, pool, made, middle, compacted, making, wrote, tokens, paths⟩ :=
    exists_of_compactFiles succeeds
  obtain ⟨first, second, rfl, oneBlock, noBlock, noFunction, readBack⟩ :=
    exists_results_graphFiles compacted
  obtain ⟨rank, compact, last, held⟩ := exists_holds compacted wrote tokens
    (paths ▸ List.mem_cons_self : "out/x.mem.json" ∈ _)
  rw [← paths] at last
  obtain rfl : compact = second := by
    match rank, last with
    | 0, last => exact absurd rfl (last.last 1 Nat.zero_lt_one)
    | 1, last => exact (Option.some.inj last.result).symm
    | rank + 2, last => exact nomatch last.placed
  obtain ⟨next, read, _, answers⟩ := held.loads (by rw [noFunction]; decide)
    (by rw [noBlock]; decide) readBack
  have lost : next.blockCount = 0 := answers.blockCount.trans noBlock
  refine ⟨first, compact, pool, _, next, compacted, succeeds, read, oneBlock, lost, ?_⟩
  rw [← Bool.not_eq_true]
  intro same
  have counts := blockCount_eq_of_same same
  rw [lost, oneBlock] at counts
  cases counts

end FlowGraph.FileOperation
