/-
This file says when it leaves a graph untouched to normalize a copy of it or to
compact it. A graph is a value, and neither operation returns another one in its
place; but the store that is attached to it may be a handle to a shared
dictionary, and a copy of the graph has the same handle. So a copy that is
normalized without a store of its own gives its lines to the dictionary of the
graph that it is a copy of. A store that is the graph's own is copied with it,
and nothing but the store that is passed changes.
-/

import FlowGraph.Proofs.Recipients

namespace FlowGraph

/-- Whether the store attached to a graph holds the same in two pools. All else about the graph
does not depend on the pool. -/
def Graph.Undisturbed (graph : Graph) (before after : Pool) : Prop :=
  ∀ store, graph.tokens = some store → store.contents after = store.contents before

/-- What an operation that reads a graph does with the shared dictionaries: the attached one gets
the lines if it works on a copy that is normalized with the store attached to it, the passed one
gets them if it registers them there, and no other one changes. -/
structure Graph.Touches (graph : Graph) (passed : Option TokenStore) (before after : Pool)
    (throughCopy registers : Prop) (lines : List String) : Prop where
  length : after.length = before.length
  copied : ∀ handle, graph.tokens = some (.shared handle) → throughCopy →
    (TokenStore.shared handle).contents after =
      ((TokenStore.shared handle).contents before).extended lines
  registered : ∀ handle, passed = some (.shared handle) → registers →
    (TokenStore.shared handle).contents after =
      ((TokenStore.shared handle).contents before).extended lines
  others : ∀ handle, ¬ (graph.tokens = some (.shared handle) ∧ throughCopy) →
    ¬ (passed = some (.shared handle) ∧ registers) →
    (TokenStore.shared handle).contents after = (TokenStore.shared handle).contents before
  undisturbed_iff : graph.Undisturbed before after ↔
    (throughCopy → ∀ handle, graph.tokens = some (.shared handle) →
      ∀ line ∈ lines, line ∈ (TokenStore.shared handle).tokens before)

namespace Graph

variable {graph : Graph} {passed : Option TokenStore} {before after : Pool}
  {throughCopy registers : Prop} {lines : List String}

/-- Operations that give lines to dictionaries touch nothing else, if another store than the
attached one was passed. -/
theorem touches_of_gives {receives : Nat → Prop}
    (apart : ∀ handle, graph.tokens = some (.shared handle) → passed ≠ some (.shared handle))
    (gives : before.Gives after receives lines)
    (reached : ∀ handle, receives handle ↔
      graph.tokens = some (.shared handle) ∧ throughCopy ∨
        passed = some (.shared handle) ∧ registers) :
    graph.Touches passed before after throughCopy registers lines where
  length := gives.length
  copied handle own through :=
    gives.received handle ((reached handle).mpr (Or.inl ⟨own, through⟩))
  registered handle given fills :=
    gives.received handle ((reached handle).mpr (Or.inr ⟨given, fills⟩))
  others handle missed other := gives.spared handle fun reaches =>
    ((reached handle).mp reaches).elim missed other
  undisturbed_iff := by
    have same (handle : Nat) (own : graph.tokens = some (.shared handle)) :
        (TokenStore.shared handle).contents after = (TokenStore.shared handle).contents before ↔
          (throughCopy → ∀ line ∈ lines, line ∈ (TokenStore.shared handle).tokens before) := by
      rw [gives.contents_eq_iff handle, reached handle, and_iff_right own,
        or_iff_left fun both => apart handle own both.1]
    constructor
    · intro undisturbed through handle own
      exact (same handle own).mp (undisturbed _ own) through
    · intro known store own
      cases store with
      | own dictionary => rfl
      | shared handle => exact (same handle own).mpr fun through => known through handle own

/-- Normalizing a copy without a store, and compacting a graph that is still to be normalized, give
the lines to the shared dictionary that is attached to the graph, and so it stays untouched exactly
if this dictionary has all of them or there is none. Nothing else changes but the passed store. -/
theorem reading_touches {pool : Pool}
    (apart : ∀ handle, graph.tokens = some (.shared handle) → passed ≠ some (.shared handle))
    (attachedLives : graph.StoreLivesIn pool)
    (passedLives : ∀ store, passed = some store → store.LivesIn pool) :
    (∀ (rewriter : Normalizer) (force : Bool),
      graph.Touches passed pool (graph.normalized pool rewriter passed force).pool
        (passed = none) True
        (graph.lines.map (Compact.normalLine graph (some rewriter) force))) ∧
      ∀ (normalizer : Option Normalizer) (options : CompactOptions),
        graph.Touches passed pool (Compact.ofGraph pool graph normalizer passed options).2
          (Compact.Normalizes graph normalizer options.force)
          ((normalizer ≠ none ∨ graph.normalizer ≠ none) ∧ graph.danglingEdges = [])
          (graph.lines.map (Compact.normalLine graph normalizer options.force)) := by
  refine ⟨fun rewriter force => ?_, fun normalizer options => ?_⟩
  · refine touches_of_gives apart (gives_normalized rewriter force attachedLives passedLives) ?_
    intro handle
    cases passed with
    | none => simp
    | some store => simp
  · refine touches_of_gives apart
      (Compact.gives_ofGraph attachedLives passedLives normalizer options) ?_
    intro handle
    exact or_congr and_comm ⟨fun ⟨told, closed, given⟩ => ⟨given, told, closed⟩,
      fun ⟨given, told, closed⟩ => ⟨told, closed, given⟩⟩

/-! ### A graph with a shared dictionary -/

/-- A graph with one line, and the first shared dictionary attached to it. -/
def sharingGraph : Graph := ofBlock { Block.new 16 with lines := ["ret"] } (some (.shared 0))

theorem reachable_sharingGraph : sharingGraph.Reachable :=
  reachable_ofBlock ((Block.Built.new 16).fill ∅ ["ret"] [] ∅) _

/-- With another shared dictionary passed, normalizing the copy leaves the graph untouched, and
compacting the graph does not. -/
theorem sharingGraph_touched :
    sharingGraph.Undisturbed [.empty, .empty]
        (sharingGraph.normalized [.empty, .empty] .base (some (.shared 1)) false).pool ∧
      ¬ sharingGraph.Undisturbed [.empty, .empty]
        (Compact.ofGraph [.empty, .empty] sharingGraph (some .base) (some (.shared 1))
          ⟨false, false⟩).2 := by
  have apart (handle : Nat) (own : sharingGraph.tokens = some (.shared handle)) :
      some (.shared 1) ≠ some (TokenStore.shared handle) := by
    cases own
    simp
  have attachedLives : sharingGraph.StoreLivesIn [.empty, .empty] := by
    intro store own
    cases own
    exact Nat.two_pos
  have passedLives (store : TokenStore) (given : some (.shared 1) = some store) :
      store.LivesIn [.empty, .empty] := by
    cases given
    exact Nat.one_lt_two
  obtain ⟨normalized, compacted⟩ := reading_touches apart attachedLives passedLives
  refine ⟨(normalized .base false).undisturbed_iff.mpr fun absent => (nomatch absent), ?_⟩
  rw [(compacted (some .base) ⟨false, false⟩).undisturbed_iff]
  intro known
  have member : "ret" ∈ (TokenStore.shared 0).tokens [.empty, .empty] :=
    known ⟨.base, rfl, by decide⟩ 0 rfl "ret" (by decide +kernel)
  exact List.not_mem_nil member

/-- The dictionary was empty before the copy was normalized, and before the graph was compacted
over a store of its own, and has the line of the graph after that. -/
theorem copies_share_dictionary :
    sharingGraph.Reachable ∧ sharingGraph.normalizer = none ∧
      sharingGraph.tokens = some (.shared 0) ∧ (TokenStore.shared 0).tokens [.empty] = [] ∧
      (TokenStore.shared 0).tokens (sharingGraph.normalized [.empty] .base none false).pool =
        ["ret"] ∧
      (TokenStore.shared 0).tokens
        (Compact.ofGraph [.empty] sharingGraph (some .base) none ⟨false, false⟩).2 = ["ret"] :=
  ⟨reachable_sharingGraph, rfl, rfl, rfl, by decide +kernel, by decide +kernel⟩

end Graph

end FlowGraph
