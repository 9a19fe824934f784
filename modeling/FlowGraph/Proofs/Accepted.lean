/-
This file says which batches of functions a graph takes, and what it is
afterwards. A batch is consistent with a graph if each of its functions has an
address or a block, no address is used twice, by the batch or by the graph, and
line addresses match lines. Exactly the consistent batches are added. All others
are refused before anything is written, and asking to override changes nothing
but the name of a collision.

A batch that was added is there as it was described. Nothing that was there
before has changed, except that edges may have come to the ends of edge lists.
-/

import FlowGraph.Proofs.InPlace
import FlowGraph.Proofs.Incremental

namespace FlowGraph

/-! ### Single functions and blocks -/

/-- A function has an address if it was given one or has a block to take it from. -/
theorem FunctionDraft.exists_resolvedAddress?_iff {draft : FunctionDraft} :
    (∃ address, draft.resolvedAddress? = some address) ↔
      draft.address ≠ none ∨ draft.blocks ≠ [] := by
  unfold resolvedAddress?
  cases draft.address with
  | some address => simp
  | none =>
    rw [← Option.ne_none_iff_exists', Ne, List.min?_eq_none_iff, List.map_eq_nil_iff]
    simp

/-- Whether a block is an earlier one with more edges, which stand behind those that it had. -/
structure Block.Continues (later earlier : Block) : Prop where
  contents : later.withoutEdges = earlier.withoutEdges
  edgesOut : earlier.edgesOut <+: later.edgesOut
  edgesIn : earlier.edgesIn <+: later.edgesIn

/-- A failure as it is reported when overriding was asked for. -/
def GraphError.overridden : GraphError → GraphError
  | .duplicateFunction address | .duplicateBlock address => .overrideUnsupported address
  | cause => cause

namespace Graph

variable {graph next : Graph} {drafts : List FunctionDraft} {override : Bool}

/-! ### Consistent batches -/

/-- Whether a batch is consistent with a graph. -/
structure Consistent (graph : Graph) (drafts : List FunctionDraft) : Prop where
  addressed : ∀ draft ∈ drafts, draft.address ≠ none ∨ draft.blocks ≠ []
  functionsDistinct : (homes drafts).Nodup
  functionsFree : ∀ address ∈ homes drafts, graph.functions[address]? = none
  blocksDistinct : ((drafts.flatMap FunctionDraft.blocks).map Block.address).Nodup
  blocksFree : ∀ block ∈ drafts.flatMap FunctionDraft.blocks, graph.blocks[block.address]? = none
  matchesLines : ∀ block ∈ drafts.flatMap FunctionDraft.blocks, block.lineAddresses ≠ [] →
    block.lineAddresses.length = block.lines.length

/-- The consistent batches are those that a graph admits with their functions at some
addresses. -/
theorem consistent_iff : graph.Consistent drafts ↔ ∃ addresses, graph.Admits drafts addresses := by
  constructor
  · intro consistent
    exact ⟨homes drafts,
      { resolved := map_resolvedAddress?_eq fun draft member =>
          FunctionDraft.exists_resolvedAddress?_iff.mpr (consistent.addressed draft member)
        functionsFree := consistent.functionsFree
        functionsDistinct := consistent.functionsDistinct
        blocksFree := consistent.blocksFree
        blocksDistinct := consistent.blocksDistinct
        matchesLines := consistent.matchesLines }⟩
  · rintro ⟨addresses, admitted⟩
    obtain rfl := admitted.homes_eq
    exact
      { addressed := fun draft member =>
          FunctionDraft.exists_resolvedAddress?_iff.mp (admitted.exists_resolved draft member)
        functionsDistinct := admitted.functionsDistinct
        functionsFree := admitted.functionsFree
        blocksDistinct := admitted.blocksDistinct
        blocksFree := admitted.blocksFree
        matchesLines := admitted.matchesLines }

theorem exists_addFunctions_iff :
    (∃ next, graph.addFunctions drafts override = .ok next) ↔ graph.Consistent drafts := by
  rw [consistent_iff]
  constructor
  · rintro ⟨next, added⟩
    obtain ⟨addresses, admitted, _⟩ := addFunctions_eq_ok_iff.mp added
    exact ⟨addresses, admitted⟩
  · rintro ⟨addresses, admitted⟩
    exact ⟨_, addFunctions_eq_ok_iff.mpr ⟨addresses, admitted, rfl⟩⟩

/-! ### Asking to override -/

theorem checkBlock_override (taken : Std.ExtTreeSet Address) (block : Block) :
    graph.checkBlock true taken block =
      (graph.checkBlock false taken block).mapError GraphError.overridden := by
  unfold checkBlock
  split
  · rfl
  · split <;> rfl

theorem foldlM_checkBlock_override (taken : Std.ExtTreeSet Address) (blocks : List Block) :
    blocks.foldlM (graph.checkBlock true) taken =
      (blocks.foldlM (graph.checkBlock false) taken).mapError GraphError.overridden := by
  induction blocks generalizing taken with
  | nil => rfl
  | cons block rest inductionHypothesis =>
    rw [List.foldlM_cons, List.foldlM_cons, checkBlock_override]
    cases graph.checkBlock false taken block with
    | error cause => rfl
    | ok next => exact inductionHypothesis next

theorem checkDraft_override (taken : Taken) (draft : FunctionDraft) :
    graph.checkDraft true taken draft =
      (graph.checkDraft false taken draft).mapError GraphError.overridden := by
  unfold checkDraft
  cases draft.resolvedAddress? with
  | none => rfl
  | some address =>
    dsimp only
    split
    · rfl
    · rw [foldlM_checkBlock_override]
      cases draft.blocks.foldlM (graph.checkBlock false) taken.blocks <;> rfl

theorem checkBatch_override (taken : Taken) (drafts : List FunctionDraft) :
    graph.checkBatch true taken drafts =
      (graph.checkBatch false taken drafts).mapError GraphError.overridden := by
  induction drafts generalizing taken with
  | nil => rfl
  | cons draft rest inductionHypothesis =>
    rw [checkBatch, checkBatch, checkDraft_override]
    cases graph.checkDraft false taken draft with
    | error cause => rfl
    | ok checked =>
      have others := inductionHypothesis checked.2
      change (graph.checkBatch true checked.2 rest >>= fun addresses =>
        Except.ok (checked.1 :: addresses)) = Except.mapError GraphError.overridden
          (graph.checkBatch false checked.2 rest >>= fun addresses =>
            Except.ok (checked.1 :: addresses))
      rw [others]
      cases graph.checkBatch false checked.2 rest <;> rfl

/-- Asking to override only changes how a collision is reported. -/
theorem addFunctions_override (graph : Graph) (drafts : List FunctionDraft) :
    graph.addFunctions drafts true =
      (graph.addFunctions drafts false).mapError GraphError.overridden := by
  rw [addFunctions, addFunctions, checkBatch_override]
  cases graph.checkBatch false ⟨∅, ∅⟩ drafts <;> rfl

/-! ### What was added and what was there -/

/-- Blocks that are found by their addresses stand at these addresses in turn. -/
theorem forall₂_filterMap {related : Block → Block → Prop} {blocks : List Block}
    {table : AddressMap Block} (each : ∀ block ∈ blocks, ∃ later : Block,
      table[block.address]? = some later ∧ related block later) :
    List.Forall₂ related blocks
      ((blocks.map Block.address).filterMap fun address => table[address]?) := by
  induction blocks with
  | nil => exact .nil
  | cons block rest inductionHypothesis =>
    rw [List.forall_mem_cons] at each
    obtain ⟨later, found, holds⟩ := each.1
    rw [List.map_cons, List.filterMap_cons_some found]
    exact .cons holds (inductionHypothesis each.2)

/-- Whether a graph has taken a batch. Besides what adding a batch means without regard to order,
every function of the batch has its blocks in its own order, and blocks and functions from before
are still there. -/
structure Takes (graph : Graph) (drafts : List FunctionDraft) (next : Graph) : Prop
    extends graph.Extends drafts next where
  stored : ∀ draft ∈ drafts, ∃ home, draft.resolvedAddress? = some home ∧
    next.functions[home]? = some ⟨home, draft.name, draft.isExternal, draft.metadata,
      draft.blocks.map Block.address⟩ ∧
    List.Forall₂ (fun block stored => stored.Continues { block with parent := some home })
      draft.blocks (next.blocksOf ⟨home, draft.name, draft.isExternal, draft.metadata,
        draft.blocks.map Block.address⟩)
  functionsKept : ∀ {address : Address} {function : Function},
    graph.functions[address]? = some function → next.functions[address]? = some function
  blocksKept : ∀ {address : Address} {block : Block}, graph.blocks[address]? = some block →
    ∃ later, next.blocks[address]? = some later ∧ later.Continues block
  tokens : next.tokens = graph.tokens
  indexed : next.index.isSome = graph.index.isSome

theorem addFunctions_others (added : graph.addFunctions drafts override = .ok next) :
    next.tokens = graph.tokens ∧ next.index.isSome = graph.index.isSome := by
  obtain ⟨addresses, _, rfl⟩ := addFunctions_eq_ok_iff.mp added
  have placed : (graph.placeAll addresses drafts).wire.tokens = graph.tokens ∧
      (graph.placeAll addresses drafts).wire.index.isSome = graph.index.isSome := by
    rw [wire, foldl_connect_eq, placeAll_eq]
    exact ⟨rfl, Option.isSome_map⟩
  exact placed

/-- A batch that was added was taken. -/
theorem takes_of_addFunctions (sound : graph.Sound)
    (added : graph.addFunctions drafts override = .ok next) : graph.Takes drafts next := by
  have extended := extends_of_addFunctions added
  have longer := exists_longer_of_addFunctions sound added
  obtain ⟨tokens, indexed⟩ := addFunctions_others added
  -- a block found afterwards has the contents that the batch or the graph has at its address
  have continues {block : Block} (known : block ∈ graph.blockList ++
        drafts.flatMap FunctionDraft.blocks) {bare : Block}
      (contents : (next.blocks[block.address]?).map Block.withoutEdges = some bare) :
      ∃ later, next.blocks[block.address]? = some later ∧ later.withoutEdges = bare ∧
        block.edgesOut <+: later.edgesOut ∧ block.edgesIn <+: later.edgesIn := by
    obtain ⟨later, found, edges⟩ := longer block known
    rw [found, Option.map_some, Option.some.injEq] at contents
    exact ⟨later, found, contents, edges⟩
  refine { extended with stored := ?_, functionsKept := ?_, blocksKept := ?_, tokens, indexed }
  · intro draft member
    obtain ⟨addresses, admitted, _⟩ := addFunctions_eq_ok_iff.mp added
    obtain ⟨home, resolved⟩ := admitted.exists_resolved draft member
    refine ⟨home, resolved, (extended.functions home _).mpr
      (Or.inr ⟨draft, member, resolved, rfl⟩), forall₂_filterMap fun block own => ?_⟩
    have adopted : { block with parent := some home } ∈ draft.adopted home :=
      List.mem_map_of_mem own
    obtain ⟨later, found, contents, out, within⟩ :=
      continues (List.mem_append_right _ (List.mem_flatMap.mpr ⟨draft, member, own⟩))
        ((extended.blocks block.address _).mpr
          (Or.inr ⟨draft, member, home, resolved, _, adopted, rfl, rfl⟩))
    exact ⟨later, found, contents, out, within⟩
  · intro address function found
    exact (extended.functions address function).mpr (Or.inl found)
  · intro address block found
    obtain rfl := sound.blockKey found
    obtain ⟨later, there, contents, out, within⟩ :=
      continues (List.mem_append_left _ (sound.mem_blockList.mpr found))
        ((extended.blocks block.address _).mpr (Or.inl (by rw [found, Option.map_some])))
    exact ⟨later, there, contents, out, within⟩

/-! ### Exactly the consistent batches -/

/-- A batch is added exactly if it is consistent, whether or not overriding is asked for. A batch
that is refused leaves the graph in memory untouched, and one that is added is there as it was
described, beside all that was there before. -/
theorem addFunctions_takes_exactly (reachable : Reachable graph) (drafts : List FunctionDraft)
    (override : Bool) :
    ((∃ next, graph.addFunctions drafts override = .ok next) ↔ graph.Consistent drafts) ∧
      graph.addFunctions drafts true =
        (graph.addFunctions drafts false).mapError GraphError.overridden ∧
      (∀ cause held, (addFunctionsInPlace drafts override).runOn ⟨graph, false⟩ =
        (.error cause, held) →
          held = ⟨graph, false⟩ ∧ graph.addFunctions drafts override = .error cause) ∧
      (∀ cause, graph.addFunctions drafts override = .error cause →
        (addFunctionsInPlace drafts override).runOn ⟨graph, false⟩ =
          (.error cause, ⟨graph, false⟩)) ∧
      ∀ next, graph.addFunctions drafts override = .ok next → graph.Takes drafts next ∧
        ∃ touched, (addFunctionsInPlace drafts override).runOn ⟨graph, false⟩ =
          (.ok (), ⟨next, touched⟩) := by
  have settles : (addFunctionsInPlace drafts override).Settles ⟨graph, false⟩
      ((graph.addFunctions drafts override).map fun next => ((), next)) :=
    settles_addFunctionsInPlace drafts override ⟨graph, false⟩
  refine ⟨exists_addFunctions_iff, addFunctions_override graph drafts, fun cause held fails => ?_,
    fun cause refused => ?_, fun next added => ⟨takes_of_addFunctions reachable.sound added, ?_⟩⟩
  · obtain ⟨untouched, refused⟩ := settles.of_error fails
    exact ⟨untouched, Outcome.map_eq_error_iff.mp refused⟩
  · rwa [refused] at settles
  · rwa [added] at settles

/-- A batch whose second function has a block of the graph: the first function is not added
either, and asking to override changes the report. -/
def halfTaken : List FunctionDraft :=
  [⟨some 40, some "fresh", false, ∅, []⟩, ⟨some 48, none, false, ∅, [Block.new 8]⟩]

/-- The loop and its stub join another stub with their blocks in order. A batch that meets the
block of that stub is refused as a whole. -/
theorem stubGraph_takes_exactly :
    stubGraph.Consistent loopAndStub ∧
      (∃ next, stubGraph.addFunctions loopAndStub false = .ok next ∧
        stubGraph.Takes loopAndStub next) ∧
      ¬ stubGraph.Consistent halfTaken ∧
      (addFunctionsInPlace halfTaken true).runOn ⟨stubGraph, false⟩ =
        (.error (.overrideUnsupported 8), ⟨stubGraph, false⟩) := by
  have succeeds : (stubGraph.addFunctions loopAndStub false).map (fun _ => ()) = .ok () := by
    decide +kernel
  have refused : (stubGraph.addFunctions halfTaken true).map (fun _ => ()) =
      .error (.overrideUnsupported 8) := by
    decide +kernel
  obtain ⟨next, added, _⟩ := Outcome.map_eq_ok_iff.mp succeeds
  have whole := addFunctions_takes_exactly reachable_stubGraph loopAndStub false
  have half := addFunctions_takes_exactly reachable_stubGraph halfTaken true
  refine ⟨whole.1.mp ⟨next, added⟩, ⟨next, added, (whole.2.2.2.2 next added).1⟩,
    fun consistent => ?_, half.2.2.2.1 _ (Outcome.map_eq_error_iff.mp refused)⟩
  obtain ⟨other, taken⟩ := half.1.mpr consistent
  rw [taken] at refused
  cases refused

end Graph

end FlowGraph
