/-
This file describes the graph that is compacted. It is the given graph, or a
copy of it with all lines rewritten; either way it has the same functions, the
same edges and the same addresses, and it can come about if the given one can.
Shared dictionaries may grow on the way, but their handles stay valid.
-/

import FlowGraph.Proofs.Reachable
import FlowGraph.Proofs.Rows

namespace FlowGraph

/-! ### Rewritten graphs -/

/-- Whether a graph is another one with its lines rewritten, apart from its records and index. -/
structure Graph.Rewrites (rewrite : String → String) (graph next : Graph) : Prop where
  functions : next.functions = graph.functions
  blocks : next.blocks = graph.blocks.map fun _ block =>
    { block with lines := block.lines.map rewrite }
  metadata : next.metadata = graph.metadata

namespace Graph.Rewrites

variable {rewrite : String → String} {graph next : Graph}

theorem refl (graph : Graph) : Rewrites id graph graph where
  functions := rfl
  blocks := by
    have same : (fun (_ : Address) (block : Block) => { block with lines := block.lines.map id }) =
        fun _ block => block := by
      funext address block
      rw [List.map_id]
    rw [same, Std.ExtTreeMap.map_id]
  metadata := rfl

theorem normalizeLines (graph : Graph) (normalizer : Normalizer) (tokens : Option TokenStore) :
    Rewrites normalizer.normalizeLine graph
      { graph.copy.normalizeLines normalizer with tokens } where
  functions := rfl
  blocks := rfl
  metadata := rfl

theorem blockList (rewrites : Rewrites rewrite graph next) :
    next.blockList = graph.blockList.map fun block =>
      { block with lines := block.lines.map rewrite } := by
  rw [Graph.blockList, rewrites.blocks]
  exact AddressMap.contents_map _ _

theorem addresses (rewrites : Rewrites rewrite graph next) :
    next.blocks.addresses = graph.blocks.addresses := by
  rw [rewrites.blocks]
  exact AddressMap.addresses_map _ _

theorem rank (rewrites : Rewrites rewrite graph next) : next.blocks.rank = graph.blocks.rank := by
  funext address
  rw [AddressMap.rank, rewrites.addresses, AddressMap.rank]

theorem edgeCount (rewrites : Rewrites rewrite graph next) : next.edgeCount = graph.edgeCount := by
  rw [Graph.edgeCount, rewrites.blockList, List.flatMap_map]
  rfl

theorem getElem?_blocks (rewrites : Rewrites rewrite graph next) (address : Address) :
    next.blocks[address]? = graph.blocks[address]?.map fun block =>
      { block with lines := block.lines.map rewrite } := by
  rw [rewrites.blocks, Std.ExtTreeMap.getElem?_map]

theorem danglingEdges (rewrites : Rewrites rewrite graph next) :
    next.danglingEdges = graph.danglingEdges := by
  have listed : next.listedEdges = graph.listedEdges := by
    rw [listedEdges, rewrites.blockList, List.flatMap_map]
    rfl
  have spans : next.spans = graph.spans := by
    funext edge
    simp only [Graph.spans, rewrites.blocks, Std.ExtTreeMap.contains_map]
  rw [Graph.danglingEdges, listed, spans, Graph.danglingEdges]

theorem signed (rewrites : Rewrites rewrite graph next)
    (signed : ∀ block ∈ graph.blockList, block.Signed) :
    ∀ block ∈ next.blockList, block.Signed := by
  rw [rewrites.blockList, List.forall_mem_map]
  exact fun block listed => ⟨(signed block listed).own, (signed block listed).lines⟩

end Graph.Rewrites

/-! ### Pools -/

theorem Graph.length_pool_registerLines (graph : Graph) (pool : Pool) (store : TokenStore) :
    (graph.registerLines pool store).2.length = pool.length := by
  unfold registerLines
  refine List.foldlRecOn graph.blockList _
    (motive := fun state : TokenStore × Pool => state.2.length = pool.length) rfl ?_
  intro state same block _
  rw [TokenStore.length_pool_register, same]

theorem Graph.length_pool_normalize (graph : Graph) (pool : Pool) (normalizer : Normalizer)
    (store : Option TokenStore) (force : Bool) :
    (graph.normalize pool normalizer store force).pool.length = pool.length := by
  unfold normalize
  dsimp only
  split
  · exact length_pool_registerLines _ pool _
  · exact length_pool_registerLines _ pool _
  · rfl

theorem TokenStore.LivesIn.of_length {store : TokenStore} {pool after : Pool}
    (lives : store.LivesIn pool) (same : after.length = pool.length) : store.LivesIn after := by
  cases store with
  | own dictionary => trivial
  | shared handle => exact Nat.lt_of_lt_of_eq lives same.symm

/-! ### The graph that is compacted -/

namespace Compact

variable {pool middle after : Pool} {graph next : Graph} {normalizer : Option Normalizer}
  {force : Bool}

/-- The graph that is compacted is the given one, or a normalized copy. -/
theorem source_cases (prepared : source pool graph normalizer force = .ok (next, middle)) :
    (next = graph ∧ middle = pool) ∨ ∃ rewriter, normalizer = some rewriter ∧
      (graph.normalizer ≠ some rewriter.name ∨ force = true) ∧
      next = (graph.normalized pool rewriter none force).graph ∧
      middle = (graph.normalized pool rewriter none force).pool := by
  unfold source at prepared
  split at prepared
  · split at prepared
    · cases prepared
      exact Or.inl ⟨rfl, rfl⟩
    · rename_i rewriter needed
      cases prepared
      refine Or.inr ⟨rewriter, rfl, ?_, rfl, rfl⟩
      by_cases same : graph.normalizer = some rewriter.name
      · exact Or.inr (by simpa [same] using needed)
      · exact Or.inl same
  · cases prepared
    exact Or.inl ⟨rfl, rfl⟩
  · cases prepared

theorem rewrites_normalized {rewriter : Normalizer}
    (needed : graph.normalizer ≠ some rewriter.name ∨ force = true) :
    graph.Rewrites rewriter.normalizeLine (graph.normalized pool rewriter none force).graph ∧
      (graph.normalized pool rewriter none force).graph.normalizer = some rewriter.name := by
  have applied : (force || graph.copy.normalizer != some rewriter.name) = true := by
    rcases needed with other | rfl
    · exact Bool.or_eq_true_iff.mpr (Or.inr (bne_iff_ne.mpr other))
    · rfl
  obtain ⟨tokens, same⟩ := Graph.exists_graph_normalize graph.copy pool rewriter none force
  rw [if_pos applied] at same
  rw [Graph.normalized, same]
  exact ⟨.normalizeLines graph rewriter tokens, rfl⟩

theorem rewrites_of_source (prepared : source pool graph normalizer force = .ok (next, middle)) :
    ∃ rewrite, graph.Rewrites rewrite next := by
  rcases source_cases prepared with ⟨rfl, _⟩ | ⟨rewriter, _, needed, rfl, _⟩
  · exact ⟨id, .refl next⟩
  · exact ⟨rewriter.normalizeLine, (rewrites_normalized needed).1⟩

/-- With a normalizer there always is a graph to compact, and how its lines were rewritten depends
on the name of the normalizer before. -/
theorem exists_source (pool : Pool) (graph : Graph) (rewriter : Normalizer) (force : Bool) :
    ∃ next middle, source pool graph (some rewriter) force = .ok (next, middle) ∧
      next.normalizer = some rewriter.name ∧
      graph.Rewrites (if graph.normalizer = some rewriter.name ∧ !force then id
        else rewriter.normalizeLine) next := by
  unfold source
  by_cases current : graph.normalizer = some rewriter.name ∧ !force
  · simp only [if_pos current]
    exact ⟨graph, pool, rfl, current.1, .refl graph⟩
  · simp only [if_neg current]
    have needed : graph.normalizer ≠ some rewriter.name ∨ force = true := by
      by_cases same : graph.normalizer = some rewriter.name
      · exact Or.inr (by simpa [same] using current)
      · exact Or.inl same
    obtain ⟨rewrites, normalizer⟩ := rewrites_normalized needed
    exact ⟨_, _, rfl, normalizer, rewrites⟩

/-- A graph that records the normalizer is compacted as it is. -/
theorem source_of_normalizer {rewriter : Normalizer} (pool : Pool)
    (current : graph.normalizer = some rewriter.name) :
    source pool graph (some rewriter) false = .ok (graph, pool) :=
  if_pos ⟨current, rfl⟩

theorem reachable_of_source (prepared : source pool graph normalizer force = .ok (next, middle))
    (reachable : graph.Reachable) : next.Reachable := by
  rcases source_cases prepared with ⟨rfl, _⟩ | ⟨rewriter, _, _, rfl, _⟩
  · exact reachable
  · exact reachable.copy.normalize pool rewriter none force

theorem length_pool_of_source (prepared : source pool graph normalizer force = .ok (next, middle)) :
    middle.length = pool.length := by
  rcases source_cases prepared with ⟨_, rfl⟩ | ⟨rewriter, _, _, _, rfl⟩
  · rfl
  · exact graph.copy.length_pool_normalize pool rewriter none force

theorem ofGraph_eq_ok_iff {store : Option TokenStore} {options : CompactOptions}
    {compact : Compact} :
    ofGraph pool graph normalizer store options = (.ok compact, after) ↔
      ∃ next middle, source pool graph normalizer options.force = .ok (next, middle) ∧
        ofNormalized middle next (store.getD .empty) options.keepAddresses =
          (.ok compact, after) := by
  unfold ofGraph
  split
  · rename_i failure failed
    simp only [failed, reduceCtorEq, false_and, exists_false, Prod.mk.injEq]
  · rename_i next middle prepared
    constructor
    · intro built
      exact ⟨next, middle, prepared, built⟩
    · rintro ⟨other, otherMiddle, otherPrepared, built⟩
      cases prepared.symm.trans otherPrepared
      exact built

end Compact

end FlowGraph
