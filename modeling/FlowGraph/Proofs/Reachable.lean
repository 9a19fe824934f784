/-
This file defines the graphs that can come about, and proves that all of them
are sound. A graph is begun empty, or read from a snapshot, an exchange form or
a compact graph; it grows by batches of functions, single edges and libraries;
its lines are rewritten, its records replaced, its index built. A call that
fails leaves it as it was.

Two results say that nothing is left out. The blocks of a batch are those that
can be put together, and by `Graph.Reachable.built` that includes the blocks of
every graph that came about before. And a lookup, which may build the index,
leads to a graph that can come about, by `Graph.Reachable.blockContaining`.
-/

import FlowGraph.Proofs.Described

namespace FlowGraph

namespace Graph

/-! ### Runs -/

/-- The graph after a call: the new one, or the same as before if the call failed. -/
def unlessFails {Failure : Type} (graph : Graph) : Except Failure Graph → Graph
  | .ok next => next
  | .error _ => graph

theorem unlessFails_keeps {Failure : Type} {graph : Graph} {outcome : Except Failure Graph}
    {Holds : Graph → Prop} (before : Holds graph)
    (after : ∀ next, outcome = .ok next → Holds next) : Holds (graph.unlessFails outcome) := by
  cases outcome with
  | ok next => exact after next rfl
  | error => exact before

/-- The graphs that can come about. A normalizer of another make rewrites lines one by one, as
`reline` does, and a batch consists of functions whose blocks can be put together. -/
inductive Reachable : Graph → Prop
  | withMetadata (metadata : Metadata) : Reachable (withMetadata metadata)
  | ofSnapshot {snapshot : Snapshot} {graph : Graph} :
      snapshot.toGraph = .ok graph → Reachable graph
  | ofExchange {exchange : Exchange} {graph : Graph} :
      exchange.toGraph = .ok graph → Reachable graph
  | ofCompact {compact : Compact} {pool : Pool} {graph : Graph} :
      compact.toGraph pool = .ok graph → Reachable graph
  | addFunctions {graph : Graph} {drafts : List FunctionDraft} (override : Bool) :
      Reachable graph → (∀ draft ∈ drafts, ∀ block ∈ draft.blocks, block.Built) →
        Reachable (graph.unlessFails (graph.addFunctions drafts override))
  | addEdge {graph : Graph} (edge : Edge) :
      Reachable graph → Reachable (graph.unlessFails (graph.addEdge edge))
  | insertLibrary {graph library : Graph} (mapping : Std.ExtTreeMap String Address)
      (requested : Option Address) : Reachable graph → Reachable library →
        Reachable (graph.unlessFails
          ((graph.insertLibrary library mapping requested).map Prod.snd))
  | normalize {graph : Graph} (pool : Pool) (normalizer : Normalizer) (store : Option TokenStore)
      (force : Bool) : Reachable graph →
        Reachable (graph.normalize pool normalizer store force).graph
  | reline {graph : Graph} (rewrite : String → String) (name : String) :
      Reachable graph → Reachable (graph.reline rewrite name)
  | withRecords {graph : Graph} (normalizer : Option String) (tokens : Option TokenStore)
      (metadata : Metadata) : Reachable graph →
        Reachable { graph with normalizer, tokens, metadata }
  | ensureIndex {graph : Graph} : Reachable graph → Reachable graph.ensureIndex
  | copy {graph : Graph} : Reachable graph → Reachable graph.copy

/-- A lookup of a line address builds the index and does nothing else. -/
theorem Reachable.blockContaining {graph : Graph} (reachable : Reachable graph)
    (address : Address) : Reachable (graph.blockContaining address).2 := by
  unfold Graph.blockContaining blockContaining?
  dsimp only
  split
  · exact reachable.ensureIndex
  · exact reachable.ensureIndex

/-- One step keeps graphs sound, so every run does. -/
theorem Reachable.sound {graph : Graph} (reachable : Reachable graph) : graph.Sound := by
  induction reachable with
  | withMetadata metadata => exact sound_of_empty
  | ofSnapshot read => exact Snapshot.sound_toGraph read
  | ofExchange read => exact Exchange.sound_toGraph read
  | ofCompact read => exact Compact.sound_toGraph read
  | addFunctions override _ built sound =>
    refine unlessFails_keeps sound fun next added => ?_
    exact sound.toLaid.addFunctions
      (fun draft member block own => (built draft member block own).listsOwnEdges) added
  | addEdge edge _ sound =>
    exact unlessFails_keeps sound fun next added => sound.addEdge added
  | insertLibrary mapping requested _ _ sound librarySound =>
    refine unlessFails_keeps sound fun next result => ?_
    obtain ⟨⟨offset, merged⟩, inserted, rfl⟩ := Outcome.map_eq_ok_iff.mp result
    exact sound.insertLibrary librarySound inserted
  | normalize pool normalizer store force _ sound =>
    exact sound.normalize pool normalizer store force
  | reline rewrite name _ sound => exact sound.reline rewrite name
  | withRecords normalizer tokens metadata _ sound =>
    exact sound.withRecords normalizer tokens metadata
  | ensureIndex _ sound => exact sound.ensureIndex
  | copy _ sound => exact sound.copy

/-- The blocks of a graph can be put together, so they may go into another one. -/
theorem Reachable.built {graph : Graph} (reachable : Reachable graph) :
    ∀ block ∈ graph.blockList, block.Built := by
  intro block listed
  have found := reachable.sound.mem_blockList.mp listed
  exact (reachable.sound.ownEdges found).built

/-! ### A small graph -/

/-- A function with a loop that calls a stub, and the stub, which jumps back. The edge between
the two blocks of the loop is only known to the second one. -/
def loopAndStub : List FunctionDraft :=
  [⟨none, some "loop", false, ∅,
    [(({ Block.new 16 with lines := ["call", "jmp"], lineAddresses := [16, 20] }).addOut 16
        .normal).addOut 32 .functionCall,
      ({ Block.new 24 with lines := ["ret"] }).addIn 16 .normal]⟩,
    ⟨some 32, none, true, ∅, [({ Block.new 32 with lines := ["jmp"] }).addOut 24 .normal]⟩]

/-- The graph of the two functions, with a normalizer of this name. -/
def loopGraph (normalizer : Option String) : Graph :=
  { empty.unlessFails (empty.addFunctions loopAndStub false) with normalizer }

theorem built_loopAndStub : ∀ draft ∈ loopAndStub, ∀ block ∈ draft.blocks, block.Built := by
  refine List.forall_mem_cons.mpr ⟨?_, List.forall_mem_singleton.mpr ?_⟩
  · refine List.forall_mem_cons.mpr ⟨?_, List.forall_mem_singleton.mpr ?_⟩
    · exact (((Block.Built.new 16).fill ∅ ["call", "jmp"] [16, 20] ∅).addOut 16 .normal).addOut 32
        .functionCall
    · exact ((Block.Built.new 24).fill ∅ ["ret"] [] ∅).addIn 16 .normal
  · exact List.forall_mem_singleton.mpr
      (((Block.Built.new 32).fill ∅ ["jmp"] [] ∅).addOut 24 .normal)

theorem reachable_loopGraph (normalizer : Option String) : Reachable (loopGraph normalizer) :=
  ((Reachable.withMetadata ∅).addFunctions false built_loopAndStub).withRecords normalizer _ _

/-! ### The invariant -/

/-- Every graph that can come about is sound, and the block lists of its functions split its
blocks among them. -/
theorem sound_of_reachable {graph : Graph} (reachable : Reachable graph) :
    graph.Sound ∧
      (graph.functionList.flatMap Function.blocks).Perm graph.blocks.addresses :=
  ⟨reachable.sound, reachable.sound.blocks_partition⟩

/-- The small graph with its index built: the edge within the loop came to stand on both ends. -/
theorem loopGraph_sound_with_index :
    (loopGraph none).ensureIndex.edges =
        [⟨16, 16, .normal⟩, ⟨16, 32, .functionCall⟩, ⟨16, 24, .normal⟩, ⟨32, 24, .normal⟩] ∧
      (loopGraph none).ensureIndex.Sound ∧
      ((loopGraph none).ensureIndex.functionList.flatMap Function.blocks).Perm
        (loopGraph none).ensureIndex.blocks.addresses :=
  ⟨by decide, sound_of_reachable (reachable_loopGraph none).ensureIndex⟩

end Graph

end FlowGraph
