/-
This file proves that compact graphs can be expanded and compacted again without
loss. The graph that comes out of a compact graph is the one that went in, but
for addresses, names and the order of calls, and rewriting lines acts on both in
the same way. Therefore it makes no difference whether a compact graph is given
another normalizer or the graph that it was built from.
-/

import FlowGraph.Proofs.Restored

namespace FlowGraph

/-! ### The restored graph moved -/

theorem Graph.splitEdges_map_moved (move : Address → Address) (edges : List Edge) :
    Block.splitEdges (edges.map (Edge.moved move)) =
      ((Block.splitEdges edges).1.map (Edge.moved move),
        (Block.splitEdges edges).2.map (Edge.moved move)) := by
  rw [Block.splitEdges, List.partition_eq_filter_filter, List.filter_map, List.filter_map,
    Block.splitEdges, List.partition_eq_filter_filter]
  rfl

theorem Graph.splitEdges_callsFirst (block : Block) :
    Block.splitEdges (Graph.callsFirst block) = Block.splitEdges block.edgesOut := by
  simp only [Graph.callsFirst, Block.splitEdges, List.partition_eq_filter_filter,
    List.filter_append, List.filter_filter, Function.comp_apply, Bool.and_self, Bool.and_not_self,
    Bool.not_and_self, List.filter_false, List.nil_append, List.append_nil]
  rfl

namespace Graph

variable {graph : Graph} {keepAddresses : Bool} {block : Block}

theorem movedEdges_eq (laid : graph.Laid) (listed : block ∈ graph.blockList) :
    graph.movedEdges keepAddresses block =
      (callsFirst block).map (Edge.moved (graph.movedAddress keepAddresses)) := by
  refine List.map_congr_left fun edge member => ?_
  rw [Edge.moved, (laid.ownEdges (laid.mem_blockList.mp listed)).leaves edge
    (mem_callsFirst.mp member)]

theorem movesTo_restoredBlock (laid : graph.Laid) (entries : graph.HasEntries)
    (listed : block ∈ graph.blockList) (edgesIn : List Edge) :
    block.MovesTo (graph.movedAddress keepAddresses) keepAddresses
      { graph.restoredBlock keepAddresses block with edgesIn } := by
  have edges := splitEdges_map_moved (graph.movedAddress keepAddresses) (callsFirst block)
  rw [← movedEdges_eq laid listed, splitEdges_callsFirst] at edges
  exact ⟨rfl, entries.movedParent?_eq laid listed, rfl, rfl, fun keeps => if_pos keeps,
    congrArg Prod.fst edges, congrArg Prod.snd edges⟩

/-- The restored graph is the graph that was compacted, moved. -/
theorem movesTo_restored (laid : graph.Laid) (closed : graph.danglingEdges = [])
    (word : graph.blockList.length < 2 ^ 64) (entries : graph.HasEntries) :
    MovesTo (graph.movedAddress keepAddresses) keepAddresses graph
      (graph.restored keepAddresses) where
  kept keeps address := if_pos keeps
  normalizer := (records_restored graph keepAddresses).1
  metadata := (records_restored graph keepAddresses).2
  entries := entries.addresses_subset laid
  functionAddresses := functionAddresses_restored laid word entries
  blockAddresses := blockAddresses_restored laid closed word
  names := map_displayName_restored laid word entries
  functions {address function} found := by
    obtain rfl := laid.functionKey found
    obtain ⟨name, _, there⟩ := function_restored laid word found (entries.anchor? laid found)
    exact ⟨_, there, rfl, rfl⟩
  blocks {address block} found := by
    obtain rfl := laid.blockKey found
    have listed := laid.mem_blockList.mpr found
    obtain ⟨edgesIn, there⟩ := block_restored laid closed word listed
    exact ⟨_, there, movesTo_restoredBlock laid entries listed edgesIn⟩

end Graph

/-! ### Compacting again -/

namespace Compact

variable {pool middle after : Pool} {graph other next : Graph} {keepAddresses force : Bool}
  {normalizer : Normalizer}

/-- Whether a graph can come about, and can be compacted with every normalizer. -/
structure Compactable (graph : Graph) (keepAddresses : Bool) : Prop where
  reachable : graph.Reachable
  closed : graph.danglingEdges = []
  signed : keepAddresses = true → ∀ block ∈ graph.blockList, block.Signed

theorem Compactable.of_source (compactable : Compactable graph keepAddresses)
    (prepared : source pool graph (some normalizer) force = .ok (next, middle)) :
    Compactable next keepAddresses := by
  obtain ⟨rewrite, rewrites⟩ := rewrites_of_source prepared
  exact ⟨reachable_of_source prepared compactable.reachable,
    rewrites.danglingEdges.trans compactable.closed,
    fun keeps => rewrites.signed (compactable.signed keeps)⟩

/-- With a dictionary of its own, what is built does not depend on the pool. -/
theorem ofNormalized_own (compactable : Compactable graph keepAddresses) (pool current : Pool) :
    (ofNormalized pool graph .empty keepAddresses).1 =
      .ok (columnsOf current graph .empty keepAddresses) := by
  have built := (ofNormalized_eq_ok_iff compactable.reachable.sound.toLaid).mpr
    ⟨compactable.closed, compactable.signed, rfl, (rfl : poolAfter pool graph .empty = _)⟩
  rw [built]
  rfl

theorem ofGraph_of_source (compactable : Compactable graph keepAddresses)
    (prepared : source pool graph (some normalizer) force = .ok (next, middle)) (current : Pool) :
    (ofGraph pool graph (some normalizer) none ⟨keepAddresses, force⟩).1 =
      .ok (columnsOf current next .empty keepAddresses) := by
  unfold ofGraph
  rw [prepared]
  exact ofNormalized_own (compactable.of_source prepared) middle current

/-- A graph and another one that it moved to have the same compact graphs. -/
theorem ofGraph_eq_of_movesTo {move : Address → Address}
    (moves : graph.MovesTo move keepAddresses other) (compactable : Compactable graph keepAddresses)
    (otherCompactable : Compactable other keepAddresses) (pool : Pool) (normalizer : Normalizer)
    (force : Bool) : ∃ compact,
    (ofGraph pool graph (some normalizer) none ⟨keepAddresses, force⟩).1 = .ok compact ∧
      (ofGraph pool other (some normalizer) none ⟨keepAddresses, force⟩).1 = .ok compact := by
  obtain ⟨next, middle, prepared, name, rewrites⟩ := exists_source pool graph normalizer force
  obtain ⟨nextOther, middleOther, otherPrepared, otherName, otherRewrites⟩ :=
    exists_source pool other normalizer force
  rw [moves.normalizer] at otherRewrites
  have nextMoves := moves.of_rewrites rewrites otherRewrites (otherName.trans name.symm)
  have nextCompactable := compactable.of_source prepared
  have same := nextMoves.columnsOf_eq nextCompactable.reachable.sound.toLaid nextCompactable.closed
    pool .empty
  exact ⟨columnsOf pool next .empty keepAddresses, ofGraph_of_source compactable prepared pool,
    same ▸ ofGraph_of_source otherCompactable otherPrepared pool⟩

theorem normalizer_of_source
    (prepared : source pool graph (some normalizer) force = .ok (next, middle)) :
    next.normalizer = some normalizer.name := by
  obtain ⟨other, otherMiddle, otherPrepared, name, _⟩ := exists_source pool graph normalizer force
  cases prepared.symm.trans otherPrepared
  exact name

/-! ### Expanding and compacting -/

section Expanding

variable (compactable : Compactable graph keepAddresses) (entries : graph.HasEntries)
  (fits : Fits pool graph .empty keepAddresses)
  (held : (columnsOf pool graph .empty keepAddresses).MemorySized)

include compactable entries fits held

theorem compactable_restored : Compactable (graph.restored keepAddresses) keepAddresses := by
  refine ⟨.ofCompact (toGraph_restored fits held []),
    Graph.danglingEdges_restored fits.laid fits.closed fits.word, fun keeps => ?_⟩
  subst keeps
  exact (Graph.movesTo_restored fits.laid fits.closed fits.word entries).signed
    (compactable.signed rfl)

/-- Giving a compact graph a normalizer leads to the same as giving it to the graph. -/
theorem normalize_columnsOf (current : Pool) (normalizer : Normalizer) (force : Bool) : ∃ again,
    ((columnsOf pool graph .empty keepAddresses).normalize current normalizer none force).1 =
        .ok again ∧
      (ofGraph current graph (some normalizer) none ⟨keepAddresses, force⟩).1 = .ok again := by
  obtain ⟨again, direct, expanded⟩ := ofGraph_eq_of_movesTo
    (Graph.movesTo_restored fits.laid fits.closed fits.word entries) compactable
    (compactable_restored compactable entries fits held) current normalizer force
  have keeps : (columnsOf pool graph .empty keepAddresses).keepsAddresses = keepAddresses := by
    cases keepAddresses <;> rfl
  refine ⟨again, ?_, direct⟩
  unfold normalize
  rw [toGraph_restored fits held current, keeps]
  exact expanded

end Expanding

/-- The small graph as a compact one, without addresses. -/
def renumberedColumns : Compact := columnsOf [] (Graph.loopGraph (some "base")) .empty false

theorem hasEntries_loopGraph : (Graph.loopGraph (some "base")).HasEntries := by
  have found : ∀ function ∈ (Graph.loopGraph (some "base")).functionList,
      ((Graph.loopGraph (some "base")).entryBlock function).toOption.isSome = true := by decide
  intro function listed
  have succeeds := found function listed
  cases entry : (Graph.loopGraph (some "base")).entryBlock function with
  | ok block => exact ⟨block, rfl⟩
  | error => rw [entry] at succeeds; cases succeeds

/-- A compact graph can be expanded, and giving it a normalizer leads to the same as giving it to
the graph that was compacted. With the normalizer that it has, it comes back. Numbers of tokens are
words of 32 bits, so beyond `2 ^ 32` tokens different lines would share a number and come back as
one. -/
theorem normalize_eq_ofGraph (reachable : graph.Reachable) (entries : graph.HasEntries)
    {normalizer : Normalizer} {compact : Compact}
    (built : ofGraph pool graph (some normalizer) none ⟨keepAddresses, false⟩ =
      (.ok compact, after))
    (few : (compact.tokens.contents after).size ≤ 2 ^ 32) (sized : compact.MemorySized) :
    ∃ next middle, source pool graph (some normalizer) false = .ok (next, middle) ∧
      ∀ current : Pool, (∃ expanded, compact.toGraph current = .ok expanded) ∧
        (∀ (other : Normalizer) (force : Bool), ∃ again,
          (compact.normalize current other none force).1 = .ok again ∧
          (ofGraph current next (some other) none ⟨keepAddresses, force⟩).1 = .ok again) ∧
        (compact.normalize current normalizer none false).1 = .ok compact := by
  obtain ⟨next, middle, prepared, built⟩ := ofGraph_eq_ok_iff.mp built
  obtain ⟨rewrite, rewrites⟩ := rewrites_of_source prepared
  have nextReachable := reachable_of_source prepared reachable
  have laid := nextReachable.sound.toLaid
  change ofNormalized middle next .empty keepAddresses = (.ok compact, after) at built
  obtain ⟨closed, signed, rfl, rfl⟩ := (ofNormalized_eq_ok_iff laid).mp built
  have compactable : Compactable next keepAddresses := ⟨nextReachable, closed, signed⟩
  have nextEntries := entries.of_rewrites rewrites
  have fits : Fits middle next .empty keepAddresses :=
    ⟨laid, closed, signed, TokenStore.livesIn_empty middle,
      contents_tokens_own middle _ next keepAddresses ▸ few, sized.toWordSized⟩
  refine ⟨next, middle, prepared, fun current => ⟨⟨_, toGraph_restored fits sized current⟩,
    normalize_columnsOf compactable nextEntries fits sized current, ?_⟩⟩
  obtain ⟨again, same, direct⟩ :=
    normalize_columnsOf compactable nextEntries fits sized current normalizer false
  rw [same, ← direct]
  exact ofGraph_of_source compactable (source_of_normalizer _ (normalizer_of_source prepared)) middle

/-- Without addresses the stub moves from 32 to 2, but it keeps its name, and the small graph comes
back from its columns. -/
theorem renumberedColumns_come_back :
    renumberedColumns.functionNames = ["loop", "__unnamed_func__20"] ∧
      (∃ expanded, renumberedColumns.toGraph [] = .ok expanded) ∧
      (renumberedColumns.normalize [] .base none false).1 = .ok renumberedColumns := by
  have sized : renumberedColumns.MemorySized :=
    ⟨⟨by decide, by decide, by decide, by decide⟩, by decide, by decide⟩
  obtain ⟨_, _, _, again⟩ := normalize_eq_ofGraph (Graph.reachable_loopGraph _)
    hasEntries_loopGraph (ofGraph_loopGraph false) (by decide) sized
  exact ⟨by decide, (again []).1, (again []).2.2⟩

end Compact

end FlowGraph
