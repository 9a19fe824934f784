/-
This file proves that graphs that are compacted one after another over a shared dictionary stay
readable. Whatever is done with a pool, its dictionaries only grow; so what a compact graph
finds in the dictionary as it is after its own build it also finds there after all later ones,
and equal lines have equal numbers across the whole batch.
-/

import FlowGraph.Proofs.Contents
import FlowGraph.Proofs.Source

namespace FlowGraph

/-! ### Growing pools -/

/-- Whether a pool has only grown: all handles stay valid, and no token has moved. -/
structure Pool.GrowsTo (before after : Pool) : Prop where
  length : after.length = before.length
  tokens : ∀ store : TokenStore, (store.contents before).tokens <+: (store.contents after).tokens

theorem Pool.GrowsTo.refl (pool : Pool) : Pool.GrowsTo pool pool :=
  ⟨rfl, fun _ => List.prefix_refl _⟩

theorem Pool.GrowsTo.trans {before middle after : Pool} (first : Pool.GrowsTo before middle)
    (second : Pool.GrowsTo middle after) : Pool.GrowsTo before after :=
  ⟨second.length.trans first.length, fun store => (first.tokens store).trans (second.tokens store)⟩

theorem TokenStore.growsTo_register (pool : Pool) (store : TokenStore) (tokens : List String) :
    Pool.GrowsTo pool (store.register pool tokens).pool := by
  refine ⟨length_pool_register pool store tokens, fun other => ?_⟩
  match store, other with
  | .own _, _ => exact List.prefix_refl _
  | .shared _, .own _ => exact List.prefix_refl _
  | .shared handle, .shared otherHandle =>
    unfold register
    dsimp only
    split
    · exact List.prefix_refl _
    · rw [Dictionary.registerAll_eq, contents, contents, List.getElem?_set]
      split
      · rename_i same
        obtain rfl := same
        split
        · exact Dictionary.tokens_prefix_extended _ tokens
        · rename_i beyond
          exact List.getElem?_eq_none (Nat.le_of_not_lt beyond) ▸ List.prefix_refl _
      · exact List.prefix_refl _

theorem Graph.growsTo_registerLines (graph : Graph) (pool : Pool) (store : TokenStore) :
    Pool.GrowsTo pool (graph.registerLines pool store).2 := by
  unfold registerLines
  refine List.foldlRecOn graph.blockList _
    (motive := fun state : TokenStore × Pool => Pool.GrowsTo pool state.2) (.refl pool) ?_
  intro state grown block _
  exact grown.trans (state.1.growsTo_register state.2 block.lines)

theorem Graph.growsTo_normalize (graph : Graph) (pool : Pool) (normalizer : Normalizer)
    (store : Option TokenStore) (force : Bool) :
    Pool.GrowsTo pool (graph.normalize pool normalizer store force).pool := by
  unfold normalize
  dsimp only
  split
  · exact growsTo_registerLines _ pool _
  · exact growsTo_registerLines _ pool _
  · exact .refl pool

namespace Compact

variable {pool middle after final : Pool} {graph next : Graph} {normalizer : Option Normalizer}
  {store : TokenStore} {handle : Nat} {options : CompactOptions} {force keepAddresses : Bool}
  {compact : Compact}

theorem growsTo_of_source (prepared : source pool graph normalizer force = .ok (next, middle)) :
    Pool.GrowsTo pool middle := by
  rcases source_cases prepared with ⟨_, rfl⟩ | ⟨rewriter, _, _, _, rfl⟩
  · exact .refl middle
  · exact graph.copy.growsTo_normalize pool rewriter none force

theorem growsTo_ofNormalized (pool : Pool) (graph : Graph) (store : TokenStore)
    (keepAddresses : Bool) : Pool.GrowsTo pool (ofNormalized pool graph store keepAddresses).2 := by
  unfold ofNormalized
  split
  · exact .refl pool
  · exact store.growsTo_register pool _

theorem growsTo_ofGraph (pool : Pool) (graph : Graph) (normalizer : Option Normalizer)
    (store : Option TokenStore) (options : CompactOptions) :
    Pool.GrowsTo pool (ofGraph pool graph normalizer store options).2 := by
  unfold ofGraph
  split
  · exact .refl pool
  · rename_i prepared
    exact (growsTo_of_source prepared).trans (growsTo_ofNormalized _ _ _ _)

/-! ### One graph -/

/-- What happens to a line before it is registered. Without a normalizer, or if the graph records
that it went through it, lines stay as they are unless rewriting is forced. -/
def normalLine (graph : Graph) (normalizer : Option Normalizer) (force : Bool) : String → String :=
  match normalizer with
  | none => id
  | some rewriter =>
    if graph.normalizer = some rewriter.name ∧ !force then id else rewriter.normalizeLine

theorem rewrites_normalLine (prepared : source pool graph normalizer force = .ok (next, middle)) :
    graph.Rewrites (normalLine graph normalizer force) next := by
  cases normalizer with
  | none =>
    rcases source_cases prepared with ⟨rfl, _⟩ | ⟨_, given, _⟩
    · exact .refl next
    · exact nomatch given
  | some rewriter =>
    obtain ⟨other, otherMiddle, otherPrepared, _, rewrites⟩ :=
      exists_source pool graph rewriter force
    cases prepared.symm.trans otherPrepared
    exact rewrites

/-- Whether a compact graph reads as a graph does over a pool: the numbers of the lines of each
block are their positions in the dictionary, and looking them up gives these lines. -/
structure ReadsAs (compact : Compact) (current : Pool) (graph : Graph) (line : String → String) :
    Prop where
  blocks : compact.blockCount = graph.blockList.length
  numbers : ∀ {number : Nat} {block : Block}, graph.blockList[number]? = some block →
    compact.blockTokens number = .ok ((block.lines.map line).map fun content =>
      (compact.tokens.tokens current).idxOf content)
  known : ∀ {number : Nat} {block : Block}, graph.blockList[number]? = some block →
    ∀ content ∈ block.lines.map line, content ∈ compact.tokens.tokens current
  lines : ∀ {number : Nat} {block : Block}, graph.blockList[number]? = some block →
    compact.blockLines current number = .ok (block.lines.map line)

/-- A compact graph reads as the normalized graph, however its dictionary has grown since. -/
theorem readsAs_of_grown (reachable : graph.Reachable)
    (built : ofGraph pool graph normalizer (some store) options = (.ok compact, after))
    (lives : store.LivesIn pool) (grown : Pool.GrowsTo after final)
    (few : (compact.tokens.contents final).size ≤ 2 ^ 32) (sized : compact.WordSized) :
    compact.ReadsAs final graph (normalLine graph normalizer options.force) := by
  obtain ⟨next, middle, prepared, built⟩ := ofGraph_eq_ok_iff.mp built
  have rewrites := rewrites_normalLine prepared
  have laid := (reachable_of_source prepared reachable).sound.toLaid
  have livesNow := lives.of_length (length_pool_of_source prepared)
  obtain ⟨_, _, rfl, rfl⟩ := (ofNormalized_eq_ok_iff laid).mp built
  have kept := grown.tokens (columnsOf middle next store options.keepAddresses).tokens
  rw [Option.getD_some, contents_tokens_columnsOf livesNow] at kept
  have fewThen : (tokensAfter middle next store).size ≤ 2 ^ 32 := Nat.le_trans kept.length_le few
  have found {number : Nat} {block : Block} (there : graph.blockList[number]? = some block) :
      next.blockList[number]? = some { block with
        lines := block.lines.map (normalLine graph normalizer options.force) } := by
    rw [rewrites.blockList, List.getElem?_map, there, Option.map_some]
  have registered {number : Nat} {block : Block} (there : graph.blockList[number]? = some block)
      (content : String)
      (member : content ∈ block.lines.map (normalLine graph normalizer options.force)) :
      content ∈ (tokensAfter middle next store).tokens :=
    mem_tokensAfter middle store (List.mem_of_getElem? (found there)) member
  refine ⟨?_, fun there => ?_, fun there content member => ?_, fun there => ?_⟩
  · rw [Option.getD_some, blockCount_columnsOf, rewrites.blockList, List.length_map]
  · refine (blockTokens_columnsOf livesNow sized (found there)).trans (congrArg Except.ok ?_)
    rw [Dictionary.numbersOf_eq fewThen (registered there)]
    exact List.map_congr_left fun content member =>
      kept.idxOf_eq_of_mem (registered there content member)
  · exact kept.subset (registered there content member)
  · refine (blockLines_of_grown livesNow sized kept (found there)).trans ?_
    rw [Dictionary.map_readBack fewThen (registered there)]

theorem tokens_of_ofGraph (reachable : graph.Reachable)
    (built : ofGraph pool graph normalizer (some (.shared handle)) options =
      (.ok compact, after)) : compact.tokens = .shared handle := by
  obtain ⟨next, middle, prepared, built⟩ := ofGraph_eq_ok_iff.mp built
  have laid := (reachable_of_source prepared reachable).sound.toLaid
  obtain ⟨_, _, rfl, _⟩ := (ofNormalized_eq_ok_iff laid).mp built
  exact TokenStore.store_register_shared middle handle _

/-! ### One graph after another -/

/-- When a batch succeeds: its first graph is compacted, and then the others over what it left. -/
theorem ofGraphs_cons_eq_ok_iff {rest : List Graph} {compacts : List Compact} :
    ofGraphs pool normalizer handle options (graph :: rest) = (.ok compacts, after) ↔
      ∃ compact middle others, ofGraph pool graph normalizer (some (.shared handle)) options =
          (.ok compact, middle) ∧
        ofGraphs middle normalizer handle options rest = (.ok others, after) ∧
        compacts = compact :: others := by
  rw [ofGraphs]
  split
  · rename_i failed
    simp only [failed, Prod.mk.injEq, reduceCtorEq, false_and, exists_false]
  · rename_i first middle built
    split
    · rename_i failed
      simp [built, failed]
    · rename_i others last continued
      simp [built, continued, eq_comm, and_comm]

theorem growsTo_ofGraphs (graphs : List Graph) (pool : Pool) (normalizer : Option Normalizer)
    (handle : Nat) (options : CompactOptions) :
    Pool.GrowsTo pool (ofGraphs pool normalizer handle options graphs).2 := by
  induction graphs generalizing pool with
  | nil => exact .refl pool
  | cons graph rest inductionHypothesis =>
    have first := growsTo_ofGraph pool graph normalizer (some (.shared handle)) options
    rw [ofGraphs]
    split
    · rename_i failed
      rwa [failed] at first
    · rename_i middle built
      rw [built] at first
      have others := first.trans (inductionHypothesis middle)
      split
      · rename_i failed
        rwa [failed] at others
      · rename_i continued
        rwa [continued] at others

theorem length_of_ofGraphs {graphs : List Graph} {compacts : List Compact}
    (built : ofGraphs pool normalizer handle options graphs = (.ok compacts, after)) :
    compacts.length = graphs.length := by
  induction graphs generalizing pool compacts with
  | nil =>
    cases built
    rfl
  | cons graph rest inductionHypothesis =>
    obtain ⟨compact, middle, others, _, continued, rfl⟩ := ofGraphs_cons_eq_ok_iff.mp built
    rw [List.length_cons, inductionHypothesis continued, List.length_cons]

/-- Each graph of a batch is compacted as it would be alone, over what those before it have left,
and what is left then only grows. -/
theorem exists_ofGraph_of_ofGraphs {graphs : List Graph} {compacts : List Compact}
    (built : ofGraphs pool normalizer handle options graphs = (.ok compacts, after)) {rank : Nat}
    (found : graphs[rank]? = some graph) (compacted : compacts[rank]? = some compact) :
    ∃ before later,
      ofGraphs pool normalizer handle options (graphs.take rank) =
        (.ok (compacts.take rank), before) ∧
      ofGraph before graph normalizer (some (.shared handle)) options = (.ok compact, later) ∧
      Pool.GrowsTo later after := by
  induction graphs generalizing pool compacts rank with
  | nil => exact nomatch found
  | cons head rest inductionHypothesis =>
    obtain ⟨first, middle, others, alone, continued, rfl⟩ := ofGraphs_cons_eq_ok_iff.mp built
    cases rank with
    | zero =>
      rw [List.getElem?_cons_zero, Option.some_inj] at found compacted
      obtain rfl := found
      obtain rfl := compacted
      have grown := growsTo_ofGraphs rest middle normalizer handle options
      rw [continued] at grown
      exact ⟨pool, middle, rfl, alone, grown⟩
    | succ rank =>
      rw [List.getElem?_cons_succ] at found compacted
      obtain ⟨before, later, earlier, own, grown⟩ := inductionHypothesis continued found compacted
      exact ⟨before, later,
        ofGraphs_cons_eq_ok_iff.mpr ⟨first, middle, others.take rank, alone, earlier, rfl⟩,
        own, grown⟩

/-- The number of the line at a position in a block. -/
def lineNumber? (compact : Compact) (number position : Nat) : Option Nat :=
  match compact.blockTokens number with
  | .ok numbers => numbers[position]?
  | .error _ => none

/-- The line at a position in a block. -/
def lineAt? (graph : Graph) (number position : Nat) : Option String :=
  graph.blockList[number]?.bind fun block => block.lines[position]?

theorem ReadsAs.lineNumber?_eq {current : Pool} {line : String → String}
    (reads : compact.ReadsAs current graph line) {number position : Nat} {content : String}
    (found : lineAt? graph number position = some content) :
    compact.lineNumber? number position =
        some ((compact.tokens.tokens current).idxOf (line content)) ∧
      line content ∈ compact.tokens.tokens current := by
  obtain ⟨block, there, member⟩ := Option.bind_eq_some_iff.mp found
  refine ⟨?_, reads.known there _ (List.mem_map_of_mem (List.mem_of_getElem? member))⟩
  rw [lineNumber?, reads.numbers there]
  simp only [List.getElem?_map, member, Option.map_some]

/-- What is promised of graphs that are compacted one after another over a shared dictionary. -/
structure BatchReads (pool after : Pool) (normalizer : Option Normalizer) (handle : Nat)
    (options : CompactOptions) (graphs : List Graph) (compacts : List Compact) : Prop where
  kept : (TokenStore.shared handle).tokens pool <+: (TokenStore.shared handle).tokens after
  length : compacts.length = graphs.length
  alone : ∀ {rank : Nat} {graph : Graph} {compact : Compact}, graphs[rank]? = some graph →
    compacts[rank]? = some compact → ∃ before later,
      ofGraphs pool normalizer handle options (graphs.take rank) =
        (.ok (compacts.take rank), before) ∧
      ofGraph before graph normalizer (some (.shared handle)) options = (.ok compact, later) ∧
      Pool.GrowsTo later after
  reads : ∀ {rank : Nat} {graph : Graph} {compact : Compact}, graphs[rank]? = some graph →
    compacts[rank]? = some compact → compact.tokens = .shared handle ∧
      compact.ReadsAs after graph (normalLine graph normalizer options.force)
  sameNumbers : ∀ {rank : Nat} {graph : Graph} {compact : Compact}, graphs[rank]? = some graph →
    compacts[rank]? = some compact → ∀ {otherRank : Nat} {other : Graph} {otherCompact : Compact},
      graphs[otherRank]? = some other → compacts[otherRank]? = some otherCompact →
    ∀ {number position : Nat} {line : String}, lineAt? graph number position = some line →
    ∀ {otherNumber otherPosition : Nat} {otherLine : String},
      lineAt? other otherNumber otherPosition = some otherLine →
    (compact.lineNumber? number position = otherCompact.lineNumber? otherNumber otherPosition ↔
      normalLine graph normalizer options.force line =
        normalLine other normalizer options.force otherLine)

/-- Graphs that are compacted one after another over a shared dictionary all stay readable, and
equal lines have equal numbers. -/
theorem ofGraphs_reads {graphs : List Graph} (reachable : ∀ graph ∈ graphs, graph.Reachable)
    {compacts : List Compact} (valid : handle < pool.length)
    (built : ofGraphs pool normalizer handle options graphs = (.ok compacts, after))
    (few : ((TokenStore.shared handle).contents after).size ≤ 2 ^ 32)
    (sized : ∀ compact ∈ compacts, compact.WordSized) :
    BatchReads pool after normalizer handle options graphs compacts := by
  have grown := growsTo_ofGraphs graphs pool normalizer handle options
  rw [built] at grown
  have reads {rank : Nat} {graph : Graph} {compact : Compact} (found : graphs[rank]? = some graph)
      (compacted : compacts[rank]? = some compact) : compact.tokens = .shared handle ∧
        compact.ReadsAs after graph (normalLine graph normalizer options.force) := by
    obtain ⟨before, later, earlier, own, rest⟩ := exists_ofGraph_of_ofGraphs built found compacted
    have come := reachable graph (List.mem_of_getElem? found)
    have tokens := tokens_of_ofGraph come own
    have start := growsTo_ofGraphs (graphs.take rank) pool normalizer handle options
    rw [earlier] at start
    have lives : (TokenStore.shared handle).LivesIn before :=
      Nat.lt_of_lt_of_eq valid start.length.symm
    exact ⟨tokens, readsAs_of_grown come own lives rest (by rwa [tokens])
      (sized compact (List.mem_of_getElem? compacted))⟩
  refine ⟨grown.tokens (.shared handle), length_of_ofGraphs built,
    fun found compacted => exists_ofGraph_of_ofGraphs built found compacted, reads, ?_⟩
  intro rank graph compact found compacted otherRank other otherCompact otherFound otherCompacted
    number position line there otherNumber otherPosition otherLine otherThere
  obtain ⟨tokens, readsOne⟩ := reads found compacted
  obtain ⟨otherTokens, readsOther⟩ := reads otherFound otherCompacted
  obtain ⟨first, member⟩ := readsOne.lineNumber?_eq there
  obtain ⟨second, _⟩ := readsOther.lineNumber?_eq otherThere
  rw [first, second, Option.some_inj, otherTokens, ← tokens]
  exact List.idxOf_inj member

/-- The small graph twice, of which only the first one went through a normalizer before. -/
def loopTwice : List Graph := [Graph.loopGraph (some "base"), Graph.loopGraph none]

/-- What compacting both leads to over a dictionary that has one of their lines. -/
def loopTwiceBuilt : Except CompactError (List Compact) × Pool :=
  ofGraphs [.ofList ["ret"]] (some .base) 0 ⟨true, false⟩ loopTwice

/-- The columns of both. -/
def loopTwiceColumns : List Compact := loopTwiceBuilt.1.toOption.getD []

theorem loopTwiceBuilt_eq : loopTwiceBuilt = (.ok loopTwiceColumns, loopTwiceBuilt.2) := by
  have succeeds : loopTwiceBuilt.1.toOption.isSome = true := by decide +kernel
  refine Prod.ext ?_ rfl
  rw [loopTwiceColumns]
  cases built : loopTwiceBuilt.1 with
  | error failure =>
    rw [built] at succeeds
    exact nomatch succeeds
  | ok compacts => rfl

theorem loopTwice_reads :
    (loopTwiceColumns.map fun compact => compact.lines.elements) = [[1, 2, 0, 2], [1, 2, 0, 2]] ∧
      BatchReads [.ofList ["ret"]] loopTwiceBuilt.2 (some .base) 0 ⟨true, false⟩ loopTwice
        loopTwiceColumns := by
  have reachable : ∀ graph ∈ loopTwice, graph.Reachable :=
    List.forall_mem_cons.mpr ⟨Graph.reachable_loopGraph _,
      List.forall_mem_singleton.mpr (Graph.reachable_loopGraph _)⟩
  have small : ∀ compact ∈ loopTwiceColumns, compact.functionCount < 2 ^ 64 ∧
      compact.blockCount < 2 ^ 64 ∧ compact.lines.size < 2 ^ 64 ∧
      compact.targets.size < 2 ^ 64 := by decide +kernel
  have sized (compact : Compact) (member : compact ∈ loopTwiceColumns) : compact.WordSized := by
    obtain ⟨functions, blocks, lines, targets⟩ := small compact member
    exact ⟨functions, blocks, lines, targets⟩
  exact ⟨by decide +kernel, ofGraphs_reads reachable Nat.zero_lt_one loopTwiceBuilt_eq
    (by decide +kernel) sized⟩

end Compact

end FlowGraph
