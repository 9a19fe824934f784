/-
This file says what a build that fails leaves behind in a shared dictionary. The
check whether anything says how lines are normalized and the check of the edges
come before the lines of the graph are registered, but the check of the
addresses comes after that. So a build that fails on an address leaves the lines
of its graph, and any other leaves nothing, unless the dictionary is also the
one that is attached to the graph: that one has got the lines when the copy of
the graph was normalized, before there was any check.
-/

import FlowGraph.Proofs.Recipients

namespace FlowGraph.Compact

variable {pool : Pool} {graph : Graph} {normalizer : Option Normalizer} {handle : Nat}
  {force keepAddresses : Bool} {options : CompactOptions} {failure : CompactError}

/-! ### Failures before and after the registration -/

/-- Whether a failure is found when the lines are already registered. -/
def FoundLate (failure : CompactError) : Prop := ∃ address, failure = .addressOutOfRange address

theorem foundLate_of_mem_blockObstacles {block : Block} (member : failure ∈ blockObstacles block) :
    FoundLate failure := by
  obtain ⟨address, _, found⟩ := List.mem_flatMap.mp member
  unfold addressObstacles at found
  split at found
  · exact (List.not_mem_nil found).elim
  · exact ⟨address, List.mem_singleton.mp found⟩

/-- Which failures there are, and that an address is at fault exactly if all checks before the
registration were passed. -/
theorem first_obstacle_cases
    (first : (obstacles graph normalizer keepAddresses).head? = some failure) :
    (failure = .unnormalized ∧ normalizer = none ∧ graph.normalizer = none) ∨
      (∃ edge, failure = .danglingEdge edge ∧ edge ∈ graph.danglingEdges) ∨
      FoundLate failure ∧ (normalizer ≠ none ∨ graph.normalizer ≠ none) ∧
        graph.danglingEdges = [] := by
  rw [obstacles, graphObstacles] at first
  by_cases silent : normalizer = none ∧ graph.normalizer = none
  · rw [if_pos silent] at first
    exact Or.inl ⟨(Option.some.inj first).symm, silent⟩
  · rw [if_neg silent, List.nil_append] at first
    cases closed : graph.danglingEdges with
    | cons edge rest =>
      rw [closed] at first
      exact Or.inr (Or.inl ⟨edge, (Option.some.inj first).symm, List.mem_cons_self⟩)
    | nil =>
      rw [closed, List.map_nil, List.nil_append] at first
      have member := List.mem_of_mem_head? first
      split at member
      · obtain ⟨block, _, found⟩ := List.mem_flatMap.mp member
        exact Or.inr (Or.inr ⟨foundLate_of_mem_blockObstacles found, not_and_or.mp silent, rfl⟩)
      · exact (List.not_mem_nil member).elim

/-- A build fails with the first thing that stands against it. -/
theorem ofGraph_fails_iff (reachable : graph.Reachable) (store : Option TokenStore) :
    (ofGraph pool graph normalizer store options).1 = .error failure ↔
      (obstacles graph normalizer options.keepAddresses).head? = some failure := by
  obtain ⟨compact, outcome⟩ := exists_ofGraph_outcome reachable pool normalizer store options
  rw [outcome]
  exact Outcome.unlessAny_eq_error_iff

/-! ### What is left behind -/

/-- Whether a build with such a failure gives the lines of the graph to a shared dictionary that it
is to use: by looking at the addresses too late, or by normalizing a copy of a graph that the same
dictionary is attached to. -/
def Leaves (graph : Graph) (normalizer : Option Normalizer) (force : Bool) (handle : Nat)
    (failure : CompactError) : Prop :=
  FoundLate failure ∨ Normalizes graph normalizer force ∧ graph.tokens = some (.shared handle)

/-- A build that fails reaches its dictionary in these ways only. -/
theorem reaches_iff_leaves
    (first : (obstacles graph normalizer keepAddresses).head? = some failure) :
    Reaches graph normalizer (some (.shared handle)) force handle ↔
      Leaves graph normalizer force handle failure := by
  rw [Reaches, Leaves, or_comm]
  refine or_congr_left ⟨fun ⟨told, closed, _⟩ => ?_, fun late => ?_⟩
  · rcases first_obstacle_cases first with ⟨_, silent⟩ | ⟨edge, _, dangling⟩ | ⟨late, _⟩
    · exact (told.elim (· silent.1) (· silent.2)).elim
    · exact (List.not_mem_nil (closed ▸ dangling)).elim
    · exact late
  · obtain ⟨address, rfl⟩ := late
    rcases first_obstacle_cases first with ⟨other, _⟩ | ⟨edge, other, _⟩ | ⟨_, told, closed⟩
    · exact nomatch other
    · exact nomatch other
    · exact ⟨told, closed, rfl⟩

/-- What is promised of a build over a shared dictionary that fails: what can have gone wrong, and
what the dictionary holds then. -/
structure FailsOver (pool : Pool) (graph : Graph) (normalizer : Option Normalizer) (handle : Nat)
    (options : CompactOptions) (failure : CompactError) : Prop where
  causes : failure = .unnormalized ∨ (∃ edge, failure = .danglingEdge edge) ∨
    ∃ address, failure = .addressOutOfRange address
  left : Leaves graph normalizer options.force handle failure →
    (TokenStore.shared handle).contents
        (ofGraph pool graph normalizer (some (.shared handle)) options).2 =
      ((TokenStore.shared handle).contents pool).extended
        (graph.lines.map (normalLine graph normalizer options.force))
  clean : ¬ Leaves graph normalizer options.force handle failure →
    (TokenStore.shared handle).contents
        (ofGraph pool graph normalizer (some (.shared handle)) options).2 =
      (TokenStore.shared handle).contents pool
  unchanged_iff : (TokenStore.shared handle).contents
        (ofGraph pool graph normalizer (some (.shared handle)) options).2 =
      (TokenStore.shared handle).contents pool ↔
    (Leaves graph normalizer options.force handle failure → ∀ line ∈ graph.lines,
      normalLine graph normalizer options.force line ∈ (TokenStore.shared handle).tokens pool)

/-- A build that fails on an address has left the lines of its graph in the shared dictionary, and
so has one that had to normalize a graph that this dictionary is attached to. No other has. -/
theorem failed_build_leaves (reachable : graph.Reachable) (valid : handle < pool.length)
    (attachedLives : graph.StoreLivesIn pool)
    (failed : (ofGraph pool graph normalizer (some (.shared handle)) options).1 =
      .error failure) : FailsOver pool graph normalizer handle options failure := by
  have first := (ofGraph_fails_iff reachable _).mp failed
  have leaves : Reaches graph normalizer (some (.shared handle)) options.force handle ↔
      Leaves graph normalizer options.force handle failure := reaches_iff_leaves first
  have passedLives (store : TokenStore) (passed : some (.shared handle) = some store) :
      store.LivesIn pool := by
    cases passed
    exact valid
  have gives := gives_ofGraph attachedLives passedLives normalizer options
  refine ⟨?_, fun left => gives.received handle (leaves.mpr left),
    fun clean => gives.spared handle (mt leaves.mp clean), ?_⟩
  · rcases first_obstacle_cases first with ⟨silent, _⟩ | ⟨edge, dangling, _⟩ | ⟨late, _⟩
    · exact Or.inl silent
    · exact Or.inr (Or.inl ⟨edge, dangling⟩)
    · exact Or.inr (Or.inr late)
  · rw [gives.contents_eq_iff handle, leaves, List.forall_mem_map]

/-! ### Two builds that fail -/

/-- A graph with a block at an address without a signed counterpart. -/
def farGraph : Graph := .ofBlock { Block.new 0x8000000000000000 with lines := ["ret"] } none

/-- A graph with an edge to nowhere, and the first shared dictionary attached to it. -/
def danglingGraph : Graph :=
  .ofBlock ({ Block.new 16 with lines := ["ret"] }.addOut 99 .normal) (some (.shared 0))

theorem reachable_farGraph : farGraph.Reachable :=
  Graph.reachable_ofBlock ((Block.Built.new _).fill ∅ ["ret"] [] ∅) none

theorem reachable_danglingGraph : danglingGraph.Reachable :=
  Graph.reachable_ofBlock (((Block.Built.new 16).fill ∅ ["ret"] [] ∅).addOut 99 .normal) _

theorem farGraph_leaves :
    FailsOver [.empty] farGraph (some .base) 0 ⟨true, false⟩
      (.addressOutOfRange 0x8000000000000000) :=
  failed_build_leaves reachable_farGraph (by decide) nofun
    ((ofGraph_fails_iff reachable_farGraph _).mpr (by decide))

/-- Both builds fail, and the dictionary that was empty before holds the line of the graph. -/
theorem lines_left_behind :
    farGraph.Reachable ∧ danglingGraph.Reachable ∧ (TokenStore.shared 0).tokens [.empty] = [] ∧
      (ofGraph [.empty] farGraph (some .base) (some (.shared 0)) ⟨true, false⟩).1 =
        .error (.addressOutOfRange 0x8000000000000000) ∧
      (TokenStore.shared 0).tokens
        (ofGraph [.empty] farGraph (some .base) (some (.shared 0)) ⟨true, false⟩).2 = ["ret"] ∧
      (ofGraph [.empty] danglingGraph (some .base) (some (.shared 0)) ⟨false, false⟩).1 =
        .error (.danglingEdge ⟨16, 99, .normal⟩) ∧
      (TokenStore.shared 0).tokens
        (ofGraph [.empty] danglingGraph (some .base) (some (.shared 0)) ⟨false, false⟩).2 =
          ["ret"] :=
  ⟨reachable_farGraph, reachable_danglingGraph, rfl,
    (ofGraph_fails_iff reachable_farGraph _).mpr (by decide), by decide +kernel,
    (ofGraph_fails_iff reachable_danglingGraph _).mpr (by decide), by decide +kernel⟩

end FlowGraph.Compact
