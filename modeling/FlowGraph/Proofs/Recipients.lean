/-
This file says which shared dictionaries an operation reaches. A step that
registers lines gives all of them to one dictionary, the one that its store is a
handle to, and leaves the others alone. Lines that a dictionary got twice are
there once, so steps that register the same lines one after another come to the
same as if every dictionary they reach had got them in one step.

A build registers lines in up to two places. A normalized copy gives them to the
store of the graph it is a copy of, before anything is checked; and the store of
the build gets them after the edges were checked, but before the addresses are.
-/

import FlowGraph.Proofs.Provenance
import FlowGraph.Proofs.Refusals
import FlowGraph.Proofs.SharedTokens

namespace FlowGraph

/-! ### Lines that are there already -/

namespace Dictionary

variable {dictionary : Dictionary} {tokens more : List String}

theorem extended_append (dictionary : Dictionary) (tokens more : List String) :
    dictionary.extended (tokens ++ more) = (dictionary.extended tokens).extended more :=
  List.foldl_append

/-- A dictionary stays as it is exactly if it has all tokens that it gets. -/
theorem extended_eq_self_iff :
    dictionary.extended tokens = dictionary ↔ ∀ token ∈ tokens, token ∈ dictionary.tokens := by
  constructor
  · intro same token member
    rw [← same]
    exact mem_tokens_extended member
  · intro known
    refine extended_of_containsAll (List.all_eq_true.mpr fun token member => ?_)
    exact List.contains_iff_mem.mpr (known token member)

theorem extended_extended (dictionary : Dictionary) (tokens : List String) :
    (dictionary.extended tokens).extended tokens = dictionary.extended tokens :=
  extended_eq_self_iff.mpr fun _ => mem_tokens_extended

end Dictionary

/-! ### Recipients -/

/-- Whether the shared dictionaries of a pool with certain handles have got some lines, and all
others are as they were. -/
structure Pool.Gives (before after : Pool) (receives : Nat → Prop) (lines : List String) : Prop
    where
  length : after.length = before.length
  received : ∀ handle, receives handle → (TokenStore.shared handle).contents after =
    ((TokenStore.shared handle).contents before).extended lines
  spared : ∀ handle, ¬ receives handle →
    (TokenStore.shared handle).contents after = (TokenStore.shared handle).contents before

namespace Pool.Gives

variable {before middle after : Pool} {receives others : Nat → Prop} {lines more : List String}

theorem nothing (pool : Pool) (lines : List String) : pool.Gives pool (fun _ => False) lines :=
  ⟨rfl, fun _ reached => reached.elim, fun _ _ => rfl⟩

/-- The same recipients get some lines and then more. -/
theorem append (first : before.Gives middle receives lines)
    (second : middle.Gives after receives more) : before.Gives after receives (lines ++ more) where
  length := second.length.trans first.length
  received handle reached := by
    rw [second.received handle reached, first.received handle reached,
      Dictionary.extended_append]
  spared handle missed := (second.spared handle missed).trans (first.spared handle missed)

/-- Some recipients and then others get the same lines. -/
theorem both (first : before.Gives middle receives lines)
    (second : middle.Gives after others lines) :
    before.Gives after (fun handle => receives handle ∨ others handle) lines where
  length := second.length.trans first.length
  received handle reached := by
    by_cases early : receives handle
    · by_cases late : others handle
      · rw [second.received handle late, first.received handle early, Dictionary.extended_extended]
      · rw [second.spared handle late, first.received handle early]
    · rw [second.received handle (reached.resolve_left early), first.spared handle early]
  spared handle missed := by
    rw [not_or] at missed
    exact (second.spared handle missed.2).trans (first.spared handle missed.1)

theorem congr (gives : before.Gives after receives lines)
    (same : ∀ handle, others handle ↔ receives handle) : before.Gives after others lines :=
  ⟨gives.length, fun handle reached => gives.received handle ((same handle).mp reached),
    fun handle missed => gives.spared handle (mt (same handle).mpr missed)⟩

/-- A dictionary stays as it is exactly if it gets nothing or has all lines. -/
theorem contents_eq_iff (gives : before.Gives after receives lines) (handle : Nat) :
    (TokenStore.shared handle).contents after = (TokenStore.shared handle).contents before ↔
      (receives handle → ∀ line ∈ lines, line ∈ (TokenStore.shared handle).tokens before) := by
  by_cases reached : receives handle
  · rw [gives.received handle reached, Dictionary.extended_eq_self_iff]
    exact ⟨fun known _ => known, fun known => known reached⟩
  · exact ⟨fun _ absurd => (reached absurd).elim, fun _ => gives.spared handle reached⟩

end Pool.Gives

/-! ### Registering -/

namespace TokenStore

theorem store_register_eq_shared_iff (pool : Pool) (store : TokenStore) (tokens : List String)
    (handle : Nat) :
    (store.register pool tokens).store = .shared handle ↔ store = .shared handle := by
  cases store with
  | own dictionary => exact ⟨fun equal => (nomatch equal), fun equal => (nomatch equal)⟩
  | shared other => rw [store_register_shared]

/-- Registering tokens gives them to the dictionary that the store is a handle to. -/
theorem gives_register {pool : Pool} {store : TokenStore} (lives : store.LivesIn pool)
    (tokens : List String) :
    pool.Gives (store.register pool tokens).pool (fun handle => store = .shared handle) tokens where
  length := length_pool_register pool store tokens
  received handle reached := by
    subst reached
    have registered := contents_register lives tokens
    rwa [store_register_shared] at registered
  spared handle missed := by
    cases store with
    | own dictionary => rfl
    | shared other =>
      have different : other ≠ handle := fun same => missed (congrArg shared same)
      unfold register
      dsimp only
      split
      · rfl
      · rw [contents, contents, List.getElem?_set_ne different]

end TokenStore

namespace Graph

variable {graph : Graph} {pool : Pool} {store : TokenStore}

/-- Registering the lines of a graph block by block gives all of them to one dictionary. -/
theorem gives_registerLines (lives : store.LivesIn pool) :
    pool.Gives (graph.registerLines pool store).2 (fun handle => store = .shared handle)
      graph.lines := by
  unfold registerLines lines
  induction graph.blockList generalizing pool store with
  | nil => exact ⟨rfl, fun _ _ => rfl, fun _ _ => rfl⟩
  | cons block rest inductionHypothesis =>
    have first := TokenStore.gives_register lives block.lines
    have others := inductionHypothesis (TokenStore.livesIn_register lives block.lines)
    exact first.append (others.congr fun handle =>
      (TokenStore.store_register_eq_shared_iff pool store block.lines handle).symm)

/-- Whether the token store of a graph is its own or a shared one of the pool, as every handle
is. -/
def StoreLivesIn (graph : Graph) (pool : Pool) : Prop :=
  ∀ store, graph.tokens = some store → store.LivesIn pool

/-- Lines are rewritten exactly if a normalization applies. -/
theorem normalLine_eq (graph : Graph) (rewriter : Normalizer) (force : Bool) :
    Compact.normalLine graph (some rewriter) force =
      if force || graph.normalizer != some rewriter.name then rewriter.normalizeLine else id := by
  rw [Compact.normalLine]
  by_cases recorded : graph.normalizer = some rewriter.name
  · cases force <;> simp [recorded]
  · simp [recorded]

/-- The lines of a graph after it was normalized, or left alone because of its record. -/
theorem lines_normalized (graph : Graph) (pool : Pool) (rewriter : Normalizer)
    (passed : Option TokenStore) (force : Bool) :
    (graph.normalized pool rewriter passed force).graph.lines =
      graph.lines.map (Compact.normalLine graph (some rewriter) force) := by
  obtain ⟨tokens, same⟩ := exists_graph_normalize graph.copy pool rewriter passed force
  have record : graph.copy.normalizer = graph.normalizer := rfl
  rw [normalized, same, normalLine_eq, record]
  split
  · exact lines_reline graph.copy rewriter.normalizeLine rewriter.name
  · exact (List.map_id graph.lines).symm

/-- Normalizing a copy gives the lines to the store that was passed, or else to the one of the
graph. -/
theorem gives_normalized (rewriter : Normalizer) {passed : Option TokenStore} (force : Bool)
    (attachedLives : graph.StoreLivesIn pool)
    (passedLives : ∀ store, passed = some store → store.LivesIn pool) :
    pool.Gives (graph.normalized pool rewriter passed force).pool
      (fun handle => passed.or graph.tokens = some (.shared handle))
      (graph.lines.map (Compact.normalLine graph (some rewriter) force)) := by
  rw [← lines_normalized graph pool rewriter passed force]
  unfold normalized normalize
  dsimp only
  have attached : (if force || graph.copy.normalizer != some rewriter.name then
      graph.copy.normalizeLines rewriter else graph.copy).tokens = graph.tokens := by
    split <;> rfl
  rw [attached]
  cases passed with
  | some store =>
    exact (gives_registerLines (passedLives store rfl)).congr fun handle => Option.some_inj
  | none =>
    rw [Option.none_or]
    cases own : graph.tokens with
    | none => exact (Pool.Gives.nothing pool _).congr fun handle => iff_of_false nofun id
    | some store =>
      exact (gives_registerLines (attachedLives store own)).congr fun handle => Option.some_inj

theorem Rewrites.lines {rewrite : String → String} {next : Graph}
    (rewrites : Rewrites rewrite graph next) : next.lines = graph.lines.map rewrite := by
  rw [Graph.lines, rewrites.blockList, List.flatMap_map, Graph.lines, List.map_flatMap]

end Graph

/-! ### Builds -/

namespace Compact

variable {pool middle : Pool} {graph next : Graph} {normalizer : Option Normalizer}
  {force : Bool}

/-- Whether a build normalizes a copy of the graph before it does anything else. -/
def Normalizes (graph : Graph) (normalizer : Option Normalizer) (force : Bool) : Prop :=
  ∃ rewriter, normalizer = some rewriter ∧ ¬ (graph.normalizer = some rewriter.name ∧ !force)

/-- Whether a build gives the lines to the shared dictionary with a certain handle: by normalizing
a copy of a graph that this dictionary is attached to, or by registering them for the columns. -/
def Reaches (graph : Graph) (normalizer : Option Normalizer) (store : Option TokenStore)
    (force : Bool) (handle : Nat) : Prop :=
  Normalizes graph normalizer force ∧ graph.tokens = some (.shared handle) ∨
    (normalizer ≠ none ∨ graph.normalizer ≠ none) ∧ graph.danglingEdges = [] ∧
      store = some (.shared handle)

theorem gives_source (attachedLives : graph.StoreLivesIn pool)
    (prepared : source pool graph normalizer force = .ok (next, middle)) :
    pool.Gives middle
      (fun handle => Normalizes graph normalizer force ∧ graph.tokens = some (.shared handle))
      (graph.lines.map (normalLine graph normalizer force)) := by
  have silent (skipped : ¬ Normalizes graph normalizer force) (same : middle = pool) :
      pool.Gives middle
        (fun handle => Normalizes graph normalizer force ∧ graph.tokens = some (.shared handle))
        (graph.lines.map (normalLine graph normalizer force)) := by
    subst same
    exact (Pool.Gives.nothing middle _).congr fun handle =>
      iff_of_false (fun both => skipped both.1) id
  unfold source at prepared
  split at prepared
  · rename_i rewriter
    split at prepared
    · rename_i current
      cases prepared
      refine silent (fun ⟨other, given, needed⟩ => ?_) rfl
      cases given
      exact needed current
    · rename_i needed
      cases prepared
      have gives := Graph.gives_normalized rewriter force attachedLives
        fun store (given : none = some store) => nomatch given
      exact gives.congr fun handle => and_iff_right ⟨rewriter, rfl, needed⟩
  · cases prepared
    exact silent (fun ⟨_, given, _⟩ => nomatch given) rfl
  · cases prepared

/-- A new store is no handle, so only a passed one can be. -/
theorem getD_eq_shared_iff (store : Option TokenStore) (handle : Nat) :
    store.getD .empty = .shared handle ↔ store = some (.shared handle) := by
  cases store with
  | none => simp [TokenStore.empty]
  | some passed => exact Option.some_inj.symm

theorem gives_ofNormalized {store : TokenStore} (lives : store.LivesIn pool)
    (keepAddresses : Bool) :
    pool.Gives (ofNormalized pool graph store keepAddresses).2
      (fun handle => graph.danglingEdges = [] ∧ store = .shared handle) graph.lines := by
  unfold ofNormalized
  split
  · rename_i dangling
    rw [dangling]
    exact (Pool.Gives.nothing pool _).congr fun handle =>
      iff_of_false (fun both => List.cons_ne_nil _ _ both.1) id
  · rename_i closed
    rw [closed]
    exact (TokenStore.gives_register lives graph.lines).congr fun handle => and_iff_right rfl

/-- A build gives the normal lines of the graph to the dictionaries that it reaches, and the others
stay as they are. That does not depend on whether it succeeds. -/
theorem gives_ofGraph {store : Option TokenStore} (attachedLives : graph.StoreLivesIn pool)
    (passedLives : ∀ passed, store = some passed → passed.LivesIn pool)
    (normalizer : Option Normalizer) (options : CompactOptions) :
    pool.Gives (ofGraph pool graph normalizer store options).2
      (Reaches graph normalizer store options.force)
      (graph.lines.map (normalLine graph normalizer options.force)) := by
  rcases source_cases_normalizer pool graph normalizer options.force with
    ⟨rfl, recorded, refused⟩ | ⟨told, next, middle, prepared⟩
  · rw [ofGraph, refused]
    refine (Pool.Gives.nothing pool _).congr fun handle => iff_of_false ?_ id
    rintro (⟨⟨_, given, _⟩, _⟩ | ⟨told, _⟩)
    · cases given
    · exact told.elim (· rfl) (· recorded)
  · have rewrites := rewrites_normalLine prepared
    have first := gives_source attachedLives prepared
    have lives : (store.getD .empty).LivesIn middle := by
      cases store with
      | none => trivial
      | some passed => exact (passedLives passed rfl).of_length first.length
    have second : middle.Gives (ofNormalized middle next (store.getD .empty)
        options.keepAddresses).2 _ next.lines := gives_ofNormalized lives options.keepAddresses
    rw [rewrites.lines] at second
    rw [ofGraph, prepared]
    refine (first.both second).congr fun handle => or_congr_right ?_
    rw [rewrites.danglingEdges, and_iff_right (not_and_or.mp told)]
    exact and_congr_right fun _ => (getD_eq_shared_iff store handle).symm

end Compact

/-! ### Graphs of one block -/

namespace Graph

/-- The graph of a function with one block, and a store attached to it. -/
def ofBlock (block : Block) (tokens : Option TokenStore) : Graph :=
  { empty.unlessFails (empty.addFunctions [⟨none, none, false, ∅, [block]⟩] false) with tokens }

theorem reachable_ofBlock {block : Block} (built : block.Built) (tokens : Option TokenStore) :
    Reachable (ofBlock block tokens) :=
  ((Reachable.withMetadata ∅).addFunctions false
    (List.forall_mem_singleton.mpr (List.forall_mem_singleton.mpr built))).withRecords _ tokens _

end Graph

end FlowGraph
