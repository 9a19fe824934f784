/-
This file proves that a graph is compacted unless something stands against it, and that what is
reported is the first of the obstacles: nothing says how the lines are normalized, edges dangle,
or an address that is to be kept has no signed counterpart. Nothing else can go wrong. What comes
out answers every question about its blocks and functions, and it can be expanded.
-/

import FlowGraph.Proofs.Lossless
import FlowGraph.Proofs.Relined

namespace FlowGraph.Compact

variable {pool middle : Pool} {graph next : Graph} {normalizer : Option Normalizer}
  {store : TokenStore} {force keepAddresses : Bool} {block : Block}

/-! ### Obstacles -/

/-- What stands against keeping an address. -/
def addressObstacles (address : Address) : List CompactError :=
  if address.toNat < 2 ^ 63 then [] else [.addressOutOfRange address]

/-- What stands against keeping the addresses of a block, its own before those of its lines. -/
def blockObstacles (block : Block) : List CompactError :=
  (block.address :: block.lineAddresses).flatMap addressObstacles

/-- What stands against compacting a normalized graph, in the order in which it is reported. -/
def graphObstacles (graph : Graph) (keepAddresses : Bool) : List CompactError :=
  graph.danglingEdges.map .danglingEdge ++
    if keepAddresses then graph.blockList.flatMap blockObstacles else []

/-- What stands against compacting a graph, in the order in which it is reported. -/
def obstacles (graph : Graph) (normalizer : Option Normalizer) (keepAddresses : Bool) :
    List CompactError :=
  (if normalizer = none ∧ graph.normalizer = none then [.unnormalized] else []) ++
    graphObstacles graph keepAddresses

theorem blockObstacles_eq_nil_iff : blockObstacles block = [] ↔ block.Signed := by
  simp only [blockObstacles, addressObstacles, List.flatMap_eq_nil_iff, ite_eq_left_iff,
    List.cons_ne_nil, imp_false, Decidable.not_not, List.forall_mem_cons]
  exact ⟨fun both => ⟨both.1, both.2⟩, fun signed => ⟨signed.own, signed.lines⟩⟩

/-! ### Addresses -/

theorem signedAddress_outcome (address : Address) :
    signedAddress address = Outcome.unlessAny (addressObstacles address) (address.toNat : Int) := by
  have half : UInt64.size / 2 = 2 ^ 63 := rfl
  rw [signedAddress, addressObstacles, half]
  split <;> rfl

theorem signedLineAddresses_outcome (block : Block) :
    signedLineAddresses block =
      Outcome.unlessAny (block.lineAddresses.flatMap addressObstacles) block.signedLines := by
  unfold signedLineAddresses Block.signedLines
  split
  · exact Outcome.mapM_eq_unlessAny fun address _ => signedAddress_outcome address
  · rename_i unknown
    rw [Block.hasLineAddresses_iff, Decidable.not_not] at unknown
    rw [unknown]
    rfl

/-! ### Rows -/

/-- All edges out of a block of a graph without dangling edges lead to numbered blocks. -/
theorem targetNumbers_splitEdges (closed : graph.danglingEdges = [])
    (listed : block ∈ graph.blockList) :
    targetNumbers graph.blocks.ranks (Block.splitEdges block.edgesOut).2 =
        .ok (graph.callRanks block) ∧
      targetNumbers graph.blocks.ranks (Block.splitEdges block.edgesOut).1 =
        .ok (graph.normalRanks block) := by
  have targets (edge : Edge) (member : edge ∈ block.edgesOut) :
      edge.target ∈ graph.blocks.addresses := Graph.target_mem_addresses closed listed member
  exact ⟨targetNumbers_eq_ok_iff.mpr
      ⟨fun edge member => targets edge (Graph.mem_splitEdges.mpr (Or.inr member)), rfl⟩,
    targetNumbers_eq_ok_iff.mpr
      ⟨fun edge member => targets edge (Graph.mem_splitEdges.mpr (Or.inl member)), rfl⟩⟩

/-- A block has a row unless an address is to be kept that does not fit. -/
theorem row_outcome (laid : graph.Laid) (closed : graph.danglingEdges = [])
    (listed : block ∈ graph.blockList) :
    row graph (.ofGraph graph) keepAddresses block =
      Outcome.unlessAny (if keepAddresses then blockObstacles block else [])
        (graph.plainRow keepAddresses block) := by
  obtain ⟨calls, normals⟩ := targetNumbers_splitEdges closed listed
  unfold row Numbering.ofGraph
  dsimp only
  rw [laid.parentNumber_eq listed, calls, normals]
  cases keepAddresses with
  | false => rfl
  | true =>
    simp only [if_true]
    rw [signedAddress_outcome, blockObstacles, List.flatMap_cons]
    refine Outcome.unlessAny_bind_eq _ ?_
    rw [signedLineAddresses_outcome]
    exact Outcome.map_unlessAny _ _ _

/-! ### Builds -/

theorem ofNormalized_outcome (laid : graph.Laid) (pool : Pool) (store : TokenStore)
    (keepAddresses : Bool) :
    (ofNormalized pool graph store keepAddresses).1 =
      Outcome.unlessAny (graphObstacles graph keepAddresses)
        (columnsOf pool graph store keepAddresses) := by
  unfold ofNormalized graphObstacles
  cases closed : graph.danglingEdges with
  | cons edge rest => rfl
  | nil =>
    have rows : graph.blockList.mapM (row graph (.ofGraph graph) keepAddresses) = _ :=
      Outcome.mapM_eq_unlessAny fun block listed => row_outcome laid closed listed
    have causes : (graph.blockList.flatMap fun block =>
        if keepAddresses then blockObstacles block else []) =
          if keepAddresses then graph.blockList.flatMap blockObstacles else [] := by
      cases keepAddresses with
      | false => exact List.flatMap_eq_nil_iff.mpr fun _ _ => rfl
      | true => rfl
    dsimp only
    rw [rows, causes]
    exact Outcome.map_unlessAny _ _ _

theorem obstacles_of_rewrites {rewrite : String → String}
    (rewrites : graph.Rewrites rewrite next) (keepAddresses : Bool) :
    graphObstacles next keepAddresses = graphObstacles graph keepAddresses := by
  have blocks : next.blockList.flatMap blockObstacles =
      graph.blockList.flatMap blockObstacles := by
    rw [rewrites.blockList, List.flatMap_map]
    rfl
  rw [graphObstacles, rewrites.danglingEdges, blocks, graphObstacles]

/-- There is a graph to compact unless nothing says how the lines are normalized. -/
theorem source_cases_normalizer (pool : Pool) (graph : Graph) (normalizer : Option Normalizer)
    (force : Bool) :
    (normalizer = none ∧ graph.normalizer = none ∧
        source pool graph normalizer force = .error .unnormalized) ∨
      ¬ (normalizer = none ∧ graph.normalizer = none) ∧
        ∃ next middle, source pool graph normalizer force = .ok (next, middle) := by
  cases normalizer with
  | some rewriter =>
    obtain ⟨next, middle, prepared, _⟩ := exists_source pool graph rewriter force
    exact Or.inr ⟨fun both => (nomatch both.1), next, middle, prepared⟩
  | none =>
    cases recorded : graph.normalizer with
    | none =>
      refine Or.inl ⟨rfl, rfl, ?_⟩
      unfold source
      simp only [recorded]
    | some name =>
      refine Or.inr ⟨fun both => (nomatch both.2), graph, pool, ?_⟩
      unfold source
      simp only [recorded]

/-- A graph is compacted unless something stands against it, and the first obstacle is reported. -/
theorem exists_ofGraph_outcome (reachable : graph.Reachable) (pool : Pool)
    (normalizer : Option Normalizer) (store : Option TokenStore) (options : CompactOptions) :
    ∃ compact, (ofGraph pool graph normalizer store options).1 =
      Outcome.unlessAny (obstacles graph normalizer options.keepAddresses) compact := by
  rcases source_cases_normalizer pool graph normalizer options.force with
    ⟨rfl, recorded, refused⟩ | ⟨told, next, middle, prepared⟩
  · refine ⟨columnsOf pool graph .empty options.keepAddresses, ?_⟩
    rw [ofGraph, refused, obstacles, if_pos ⟨rfl, recorded⟩]
    rfl
  · obtain ⟨rewrite, rewrites⟩ := rewrites_of_source prepared
    have laid := (reachable_of_source prepared reachable).sound.toLaid
    refine ⟨columnsOf middle next (store.getD .empty) options.keepAddresses, ?_⟩
    rw [ofGraph, prepared, obstacles, if_neg told, List.nil_append,
      ← obstacles_of_rewrites rewrites]
    exact ofNormalized_outcome laid middle (store.getD .empty) options.keepAddresses

theorem obstacles_eq_nil_iff (graph : Graph) (normalizer : Option Normalizer)
    (keepAddresses : Bool) :
    obstacles graph normalizer keepAddresses = [] ↔
      (normalizer ≠ none ∨ graph.normalizer ≠ none) ∧ graph.danglingEdges = [] ∧
        (keepAddresses = true → ∀ block ∈ graph.blockList, block.Signed) := by
  rw [obstacles, graphObstacles, List.append_eq_nil_iff, List.append_eq_nil_iff,
    List.map_eq_nil_iff]
  refine and_congr ?_ (and_congr Iff.rfl ?_)
  · rw [ite_eq_right_iff, ← not_and_or]
    exact ⟨fun absurd both => (nomatch absurd both), fun told both => (told both).elim⟩
  · cases keepAddresses with
    | false => simp
    | true =>
      simp only [if_true, List.flatMap_eq_nil_iff, blockObstacles_eq_nil_iff, true_implies]

/-! ### What was built -/

variable {current : Pool} {options : CompactOptions} {compact : Compact}

theorem length_flags_columnsOf :
    (columnsOf pool graph store keepAddresses).flags.length =
      (columnsOf pool graph store keepAddresses).blockCount := by
  rw [blockCount_columnsOf]
  simp only [columnsOf, ofRows, List.length_map]

/-- A compact graph answers every question, and it can be expanded where memory can hold a table for
every block and function, as long as its tokens are left in place. -/
theorem answers_of_ofGraph (reachable : graph.Reachable) {store : Option TokenStore} {after : Pool}
    (built : ofGraph pool graph normalizer store options = (.ok compact, after))
    (lives : (store.getD .empty).LivesIn pool) (sized : compact.WordSized)
    (kept : compact.tokens.tokens after <+: compact.tokens.tokens current) :
    (compact.MemorySized → ∃ expanded, compact.toGraph current = .ok expanded) ∧
      compact.Answers current := by
  obtain ⟨next, middle, prepared, built⟩ := ofGraph_eq_ok_iff.mp built
  have sound := (reachable_of_source prepared reachable).sound
  have livesNow := lives.of_length (length_pool_of_source prepared)
  obtain ⟨closed, signed, rfl, rfl⟩ := (ofNormalized_eq_ok_iff sound.toLaid).mp built
  rw [TokenStore.tokens, contents_tokens_columnsOf livesNow] at kept
  have found {number : Nat}
      (inside : number < (columnsOf middle next (store.getD .empty)
        options.keepAddresses).blockCount) : ∃ block, next.blockList[number]? = some block := by
    rw [blockCount_columnsOf] at inside
    exact ⟨_, List.getElem?_eq_getElem inside⟩
  refine ⟨fun held => exists_toGraph sound closed signed livesNow held kept,
    answers_of (Nat.le_of_eq length_flags_columnsOf.symm)
      (RunLength.readableBelow_of_lt (tableCount_blockMetadata_columnsOf.trans_lt sized.blocks) _)
      (RunLength.readableBelow_of_lt
        (tableCount_functionMetadata_columnsOf.trans_lt sized.functions) _) ?_ ?_⟩
  · intro number inside
    obtain ⟨block, there⟩ := found inside
    exact ⟨_, blockLines_of_grown livesNow sized kept there⟩
  · intro number function told
    have inside : number < (columnsOf middle next (store.getD .empty)
        options.keepAddresses).blockCount := by
      refine Nat.lt_of_not_le fun outside => ?_
      rw [(answersBelow_blockFunction _).refused outside] at told
      cases told
    obtain ⟨block, there⟩ := found inside
    rw [blockFunction_columnsOf sound.toLaid sized there, Except.ok.injEq] at told
    rw [← told, functionCount_columnsOf]
    exact sound.toLaid.parentRank_lt (List.mem_of_getElem? there)

/-! ### All graphs -/

/-- What is promised of compacting a graph: when it succeeds, what is reported otherwise, that the
loop over the blocks finds every function and target, and what can be done with the result. -/
structure BuildsExactly (pool : Pool) (graph : Graph) (normalizer : Option Normalizer)
    (store : Option TokenStore) (options : CompactOptions) : Prop where
  succeeds : (∃ compact, (ofGraph pool graph normalizer store options).1 = .ok compact) ↔
    (normalizer ≠ none ∨ graph.normalizer ≠ none) ∧ graph.danglingEdges = [] ∧
      (options.keepAddresses = true → ∀ block ∈ graph.blockList,
        block.address.toNat < 2 ^ 63 ∧ ∀ address ∈ block.lineAddresses, address.toNat < 2 ^ 63)
  fails : ∀ failure, (ofGraph pool graph normalizer store options).1 = .error failure ↔
    (obstacles graph normalizer options.keepAddresses).head? = some failure
  finds : ∀ {next : Graph} {middle : Pool},
    source pool graph normalizer options.force = .ok (next, middle) → next.danglingEdges = [] →
    ∀ block ∈ next.blockList,
      (∃ number, parentNumber next.functions.ranks block = .ok number) ∧
      (∃ calls, targetNumbers next.blocks.ranks (Block.splitEdges block.edgesOut).2 = .ok calls) ∧
      ∃ normals, targetNumbers next.blocks.ranks (Block.splitEdges block.edgesOut).1 = .ok normals
  answers : ∀ {compact : Compact} {after current : Pool},
    ofGraph pool graph normalizer store options = (.ok compact, after) → compact.WordSized →
    compact.tokens.tokens after <+: compact.tokens.tokens current →
    (compact.MemorySized → ∃ expanded, compact.toGraph current = .ok expanded) ∧
      compact.Answers current

/-- Graphs are compacted exactly when nothing stands against it. -/
theorem ofGraph_builds_exactly (reachable : graph.Reachable) {store : Option TokenStore}
    (lives : (store.getD .empty).LivesIn pool) :
    BuildsExactly pool graph normalizer store options := by
  obtain ⟨built, outcome⟩ := exists_ofGraph_outcome reachable pool normalizer store options
  refine ⟨?_, fun failure => ?_, fun prepared closed block listed => ?_,
    fun built sized kept => answers_of_ofGraph reachable built lives sized kept⟩
  · have signed (block : Block) : block.Signed ↔
        block.address.toNat < 2 ^ 63 ∧ ∀ address ∈ block.lineAddresses, address.toNat < 2 ^ 63 :=
      ⟨fun signed => ⟨signed.own, signed.lines⟩, fun both => ⟨both.1, both.2⟩⟩
    have clear := obstacles_eq_nil_iff graph normalizer options.keepAddresses
    simp only [signed] at clear
    rw [outcome, ← clear]
    simp only [Outcome.unlessAny_eq_ok_iff, exists_and_left, exists_eq', and_true]
  · rw [outcome]
    exact Outcome.unlessAny_eq_error_iff
  · have laid := (reachable_of_source prepared reachable).sound.toLaid
    obtain ⟨calls, normals⟩ := targetNumbers_splitEdges closed listed
    exact ⟨⟨_, laid.parentNumber_eq listed⟩, ⟨_, calls⟩, ⟨_, normals⟩⟩

/-- The small graph is compacted and its columns answer; without a normalizer it is refused. -/
theorem loopGraph_builds_exactly :
    BuildsExactly [] (Graph.loopGraph (some "base")) (some .base) none ⟨true, false⟩ ∧
      loopColumns.Answers [] ∧
      (ofGraph [] (Graph.loopGraph none) none none ⟨true, false⟩).1 = .error .unnormalized := by
  have exactly : BuildsExactly [] (Graph.loopGraph (some "base")) (some .base) none
      ⟨true, false⟩ := ofGraph_builds_exactly (Graph.reachable_loopGraph _) trivial
  have refused : BuildsExactly [] (Graph.loopGraph none) none none ⟨true, false⟩ :=
    ofGraph_builds_exactly (Graph.reachable_loopGraph _) trivial
  exact ⟨exactly, (exactly.answers (ofGraph_loopGraph true) wordSized_loopColumns
    (List.prefix_refl _)).2, (refused.fails _).mpr rfl⟩

end FlowGraph.Compact
