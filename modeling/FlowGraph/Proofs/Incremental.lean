/-
This file proves that functions may be added to a graph in any order and in any
number of batches. What a batch adds is said without its order: the functions
and blocks that are found afterwards, edges apart, and the listed edges. Said
this way, one batch after the other is the same as both at once, and the order
of a batch does not matter.

Two sound graphs that agree in all this are equal. They may list the edges of a
block in different orders, because it depends on the batch that closed an edge
where it stands in the lists, but each list holds the same edges.
-/

import FlowGraph.Proofs.Equality
import FlowGraph.Proofs.Merged

namespace FlowGraph

/-- The edges that the blocks of a function list. -/
def FunctionDraft.listedEdges (draft : FunctionDraft) : List Edge :=
  draft.blocks.flatMap fun block => block.edgesOut ++ block.edgesIn

namespace Graph

variable {graph middle next left right : Graph} {drafts more : List FunctionDraft}
  {addresses : List Address} {override : Bool}

/-! ### Graphs that agree but for the order of edges -/

/-- Whether two graphs agree in everything but the order of edges, the token store and the
index. -/
structure Alike (left right : Graph) : Prop where
  functions : left.functions = right.functions
  blocks : ∀ address : Address, (left.blocks[address]?).map Block.withoutEdges =
    (right.blocks[address]?).map Block.withoutEdges
  edges : ∀ edge, edge ∈ left.listedEdges ↔ edge ∈ right.listedEdges
  records : left.normalizer = right.normalizer ∧ left.metadata = right.metadata

/-- Wiring changes no functions, of blocks only their edges, and lists no new edges. -/
theorem wire_alike (graph : Graph) : graph.wire.Alike graph where
  functions := by rw [wire, foldl_connect_eq]
  blocks := withoutEdges_foldl_connect _ _
  edges _ := mem_listedEdges_foldl_connect.trans ⟨fun either => either.elim id And.left, Or.inl⟩
  records := by
    rw [wire, foldl_connect_eq]
    exact ⟨rfl, rfl⟩

namespace Alike

theorem trans (first : left.Alike middle) (second : middle.Alike right) : left.Alike right where
  functions := first.functions.trans second.functions
  blocks address := (first.blocks address).trans (second.blocks address)
  edges edge := (first.edges edge).trans (second.edges edge)
  records := ⟨first.records.1.trans second.records.1, first.records.2.trans second.records.2⟩

theorem contains_blocks (alike : left.Alike right) (address : Address) :
    left.blocks.contains address = right.blocks.contains address := by
  have same := congrArg Option.isSome (alike.blocks address)
  rwa [Option.isSome_map, Option.isSome_map, ← Std.ExtTreeMap.contains_eq_isSome_getElem?,
    ← Std.ExtTreeMap.contains_eq_isSome_getElem?] at same

theorem mem_danglingEdges_iff (alike : left.Alike right) {edge : Edge} :
    edge ∈ left.danglingEdges ↔ edge ∈ right.danglingEdges := by
  rw [mem_danglingEdges, mem_danglingEdges, alike.edges, spans, spans, alike.contains_blocks,
    alike.contains_blocks]

/-- Blocks at one address differ in the order of edges only: their edge lists hold the same edges,
each once. -/
theorem ordered_eq (alike : left.Alike right) (leftSound : left.Sound) (rightSound : right.Sound)
    (address : Address) :
    (left.blocks[address]?).map Block.ordered = (right.blocks[address]?).map Block.ordered := by
  have bare := alike.blocks address
  cases found : left.blocks[address]? with
  | none =>
    rw [found, Option.map_none, eq_comm, Option.map_eq_none_iff] at bare
    rw [bare]
  | some block =>
    rw [found, Option.map_some, eq_comm, Option.map_eq_some_iff] at bare
    obtain ⟨other, otherFound, same⟩ := bare
    have bareAddress := congrArg Block.address same
    have sameAddress : other.address = block.address := bareAddress
    have blockListed := AddressMap.mem_contents_of_getElem? found
    have otherListed := AddressMap.mem_contents_of_getElem? otherFound
    have blockOwn := leftSound.ownEdges found
    have otherOwn := rightSound.ownEdges otherFound
    have out : block.edgesOut.Perm other.edgesOut := by
      refine (List.perm_ext_iff_of_nodup blockOwn.nodupOut otherOwn.nodupOut).mpr fun edge => ?_
      rw [leftSound.mem_edgesOut_iff blockListed, rightSound.mem_edgesOut_iff otherListed,
        alike.edges, sameAddress]
    have within : block.edgesIn.Perm other.edgesIn := by
      refine (List.perm_ext_iff_of_nodup blockOwn.nodupIn otherOwn.nodupIn).mpr fun edge => ?_
      rw [leftSound.mem_edgesIn_iff blockListed, rightSound.mem_edgesIn_iff otherListed,
        alike.edges, sameAddress]
    simp only [Block.withoutEdges, Block.mk.injEq] at same
    rw [otherFound, Option.map_some, Option.map_some, Block.ordered, Block.ordered,
      Edge.sort_eq_of_perm out, Edge.sort_eq_of_perm within]
    simp only [same]

/-- Sound graphs that agree but for the order of edges are equal. -/
theorem same (alike : left.Alike right) (leftSound : left.Sound) (rightSound : right.Sound) :
    left.same right = true := by
  refine (sameBy_iff_agrees leftSound.toLaid rightSound.toLaid).mpr
    (agrees_iff_profile_eq.mpr ?_)
  have blocks (address : Address) : (left.blocks[address]?).map (Block.mark id) =
      (right.blocks[address]?).map (Block.mark id) := by
    have marks : Block.mark id = Block.mark id ∘ Block.ordered := by
      funext block
      exact (Block.mark_ordered id block).symm
    rw [marks, ← Option.map_map, ← Option.map_map, alike.ordered_eq leftSound rightSound address]
  rw [profile, profile, alike.records.1, alike.records.2, alike.functions, funext blocks]

end Alike

/-! ### What a batch adds -/

/-- The addresses of the functions of a batch. -/
def homes (drafts : List FunctionDraft) : List Address :=
  drafts.filterMap FunctionDraft.resolvedAddress?

theorem mem_homes {address : Address} :
    address ∈ homes drafts ↔ ∃ draft ∈ drafts, draft.resolvedAddress? = some address :=
  List.mem_filterMap

theorem Admits.homes_eq (admitted : graph.Admits drafts addresses) : homes drafts = addresses := by
  have whole : homes drafts = (drafts.map FunctionDraft.resolvedAddress?).filterMap id := by
    rw [List.filterMap_map]
    rfl
  rw [whole, admitted.resolved, List.filterMap_map]
  exact List.filterMap_some

/-- The functions of a batch and their addresses belong together. -/
theorem Admits.mem_zip_iff (admitted : graph.Admits drafts addresses) {address : Address}
    {draft : FunctionDraft} :
    (address, draft) ∈ addresses.zip drafts ↔
      draft ∈ drafts ∧ draft.resolvedAddress? = some address := by
  have resolved := admitted.resolved
  clear admitted
  induction drafts generalizing addresses with
  | nil => simp
  | cons first rest inductionHypothesis =>
    cases addresses with
    | nil => cases resolved
    | cons home later =>
      rw [List.map_cons, List.map_cons, List.cons.injEq] at resolved
      have others : (address, draft) ∈ later.zip rest ↔ _ := inductionHypothesis resolved.2
      rw [List.zip_cons_cons, List.mem_cons, List.mem_cons, Prod.mk.injEq, others]
      constructor
      · rintro (⟨rfl, rfl⟩ | ⟨member, found⟩)
        · exact ⟨Or.inl rfl, resolved.1⟩
        · exact ⟨Or.inr member, found⟩
      · rintro ⟨rfl | member, found⟩
        · rw [resolved.1, Option.some.injEq] at found
          exact Or.inl ⟨found.symm, rfl⟩
        · exact Or.inr ⟨member, found⟩

/-- The edges of a batch join those of the graph. -/
theorem Admits.mem_listedEdges_placeAll (admitted : graph.Admits drafts addresses) {edge : Edge} :
    edge ∈ (graph.placeAll addresses drafts).listedEdges ↔
      edge ∈ graph.listedEdges ∨ edge ∈ drafts.flatMap FunctionDraft.listedEdges := by
  have blocks := admitted.blockList_perm.flatMap_right
    fun block => block.edgesOut ++ block.edgesIn
  have adopted : (adoptedBlocks addresses drafts).flatMap
      (fun block => block.edgesOut ++ block.edgesIn) =
        drafts.flatMap FunctionDraft.listedEdges := by
    have second : (addresses.zip drafts).map Prod.snd = drafts :=
      List.map_snd_zip (Nat.le_of_eq admitted.length_eq.symm)
    rw [adoptedBlocks, List.flatMap_assoc]
    simp only [FunctionDraft.adopted, List.flatMap_map]
    conv_rhs => rw [← second, List.flatMap_map]
    rfl
  rw [List.flatMap_append, adopted] at blocks
  rw [listedEdges, blocks.mem_iff, List.mem_append]
  rfl

/-- The functions after a batch are those from before and those of the batch. -/
theorem Admits.placed_iff (admitted : graph.Admits drafts addresses) {address : Address}
    {function : Function} :
    (graph.placeAll addresses drafts).functions[address]? = some function ↔
      graph.functions[address]? = some function ∨
        ∃ draft ∈ drafts, draft.resolvedAddress? = some address ∧
          draft.placed address = function := by
  refine admitted.getElem?_functions.trans ⟨?_, ?_⟩
  · rintro (⟨placed, same⟩ | ⟨_, old⟩)
    · obtain ⟨⟨home, draft⟩, entry, rfl⟩ := List.mem_map.mp placed
      obtain ⟨member, resolved⟩ := admitted.mem_zip_iff.mp entry
      obtain rfl : home = address := same
      exact Or.inr ⟨draft, member, resolved, rfl⟩
    · exact Or.inl old
  · rintro (old | ⟨draft, member, resolved, rfl⟩)
    · exact admitted.getElem?_functions.mp (admitted.functions_kept old)
    · exact Or.inl ⟨List.mem_map.mpr ⟨_, admitted.mem_zip_iff.mpr ⟨member, resolved⟩, rfl⟩, rfl⟩

/-- The blocks after a batch, edges apart, are those from before and those of the batch. -/
theorem Admits.adopted_iff (admitted : graph.Admits drafts addresses) {address : Address}
    {bare : Block} :
    ((graph.placeAll addresses drafts).blocks[address]?).map Block.withoutEdges = some bare ↔
      (graph.blocks[address]?).map Block.withoutEdges = some bare ∨
        ∃ draft ∈ drafts, ∃ home, draft.resolvedAddress? = some home ∧
          ∃ block ∈ draft.adopted home, block.address = address ∧ block.withoutEdges = bare := by
  rw [Option.map_eq_some_iff]
  constructor
  · rintro ⟨block, there, rfl⟩
    rcases admitted.getElem?_blocks.mp there with ⟨adopted, same⟩ | ⟨_, old⟩
    · obtain ⟨⟨home, draft⟩, entry, own⟩ := List.mem_flatMap.mp adopted
      obtain ⟨member, resolved⟩ := admitted.mem_zip_iff.mp entry
      exact Or.inr ⟨draft, member, home, resolved, block, own, same, rfl⟩
    · exact Or.inl (by rw [old, Option.map_some])
  · rintro (old | ⟨draft, member, home, resolved, block, own, same, rfl⟩)
    · obtain ⟨block, there, rfl⟩ := Option.map_eq_some_iff.mp old
      exact ⟨block, admitted.blocks_kept there, rfl⟩
    · have entry := admitted.mem_zip_iff.mpr ⟨member, resolved⟩
      have adopted : block ∈ adoptedBlocks addresses drafts :=
        List.mem_flatMap.mpr ⟨(home, draft), entry, own⟩
      exact ⟨block, admitted.getElem?_blocks.mpr (Or.inl ⟨adopted, same⟩), rfl⟩

/-- Whether a graph is another one with the functions of a batch, in whatever order and in how
many steps they were added. -/
structure Extends (graph : Graph) (drafts : List FunctionDraft) (next : Graph) : Prop where
  functions : ∀ (address : Address) (function : Function),
    next.functions[address]? = some function ↔ graph.functions[address]? = some function ∨
      ∃ draft ∈ drafts, draft.resolvedAddress? = some address ∧ draft.placed address = function
  blocks : ∀ (address : Address) (bare : Block),
    (next.blocks[address]?).map Block.withoutEdges = some bare ↔
      (graph.blocks[address]?).map Block.withoutEdges = some bare ∨
        ∃ draft ∈ drafts, ∃ home, draft.resolvedAddress? = some home ∧
          ∃ block ∈ draft.adopted home, block.address = address ∧ block.withoutEdges = bare
  edges : ∀ edge, edge ∈ next.listedEdges ↔
    edge ∈ graph.listedEdges ∨ edge ∈ drafts.flatMap FunctionDraft.listedEdges
  records : next.normalizer = graph.normalizer ∧ next.metadata = graph.metadata

/-- A batch that was added is there, and nothing else has changed but for edge lists. -/
theorem extends_of_addFunctions (added : graph.addFunctions drafts override = .ok next) :
    graph.Extends drafts next := by
  have records := addFunctions_records added
  obtain ⟨addresses, admitted, rfl⟩ := addFunctions_eq_ok_iff.mp added
  have alike := (graph.placeAll addresses drafts).wire_alike
  exact
    { functions := fun address function => alike.functions ▸ admitted.placed_iff
      blocks := fun address bare =>
        (iff_of_eq (congrArg (· = some bare) (alike.blocks address))).trans admitted.adopted_iff
      edges := fun edge => (alike.edges edge).trans admitted.mem_listedEdges_placeAll
      records := records }

namespace Extends

theorem refl (graph : Graph) : graph.Extends [] graph :=
  ⟨fun _ _ => by simp, fun _ _ => by simp, fun _ => by simp, rfl, rfl⟩

/-- One batch after another is both of them. -/
theorem trans (first : graph.Extends drafts middle) (second : middle.Extends more next) :
    graph.Extends (drafts ++ more) next where
  functions address function := by
    rw [second.functions, first.functions, or_assoc]
    simp only [List.mem_append, or_and_right, exists_or]
  blocks address bare := by
    rw [second.blocks, first.blocks, or_assoc]
    simp only [List.mem_append, or_and_right, exists_or]
  edges edge := by
    rw [second.edges, first.edges, or_assoc, List.flatMap_append, List.mem_append]
  records := ⟨second.records.1.trans first.records.1, second.records.2.trans first.records.2⟩

/-- The same functions lead to graphs that agree but for the order of edges. -/
theorem alike (leftExtends : graph.Extends drafts left) (rightExtends : graph.Extends more right)
    (same : ∀ draft, draft ∈ drafts ↔ draft ∈ more) : left.Alike right where
  functions := by
    refine Std.ExtTreeMap.ext_getElem? fun address => Option.ext fun function => ?_
    rw [leftExtends.functions, rightExtends.functions]
    simp only [same]
  blocks address := by
    refine Option.ext fun bare => ?_
    rw [leftExtends.blocks, rightExtends.blocks]
    simp only [same]
  edges edge := by
    rw [leftExtends.edges, rightExtends.edges, List.mem_flatMap, List.mem_flatMap]
    simp only [same]
  records := ⟨leftExtends.records.1.trans rightExtends.records.1.symm,
    leftExtends.records.2.trans rightExtends.records.2.symm⟩

end Extends

/-! ### Cutting a batch -/

theorem map_resolvedAddress?_eq
    (resolved : ∀ draft ∈ drafts, ∃ address, draft.resolvedAddress? = some address) :
    drafts.map FunctionDraft.resolvedAddress? = (homes drafts).map some := by
  induction drafts with
  | nil => rfl
  | cons draft rest inductionHypothesis =>
    rw [List.forall_mem_cons] at resolved
    obtain ⟨address, found⟩ := resolved.1
    rw [List.map_cons, inductionHypothesis resolved.2, homes, homes,
      List.filterMap_cons_some found, List.map_cons, found]

theorem Admits.exists_resolved (admitted : graph.Admits drafts addresses) :
    ∀ draft ∈ drafts, ∃ address, draft.resolvedAddress? = some address := by
  intro draft member
  have listed := List.mem_map_of_mem (f := FunctionDraft.resolvedAddress?) member
  rw [admitted.resolved] at listed
  obtain ⟨address, _, found⟩ := List.mem_map.mp listed
  exact ⟨address, found.symm⟩

/-- The order of a batch does not matter for whether it is admitted. -/
theorem Admits.of_perm (admitted : graph.Admits drafts addresses) (same : more.Perm drafts) :
    graph.Admits more (homes more) := by
  obtain rfl := admitted.homes_eq
  have addressesSame := same.filterMap FunctionDraft.resolvedAddress?
  have blocksSame := same.flatMap_right FunctionDraft.blocks
  exact
    { resolved := map_resolvedAddress?_eq fun draft member =>
        admitted.exists_resolved draft (same.mem_iff.mp member)
      functionsFree := fun address member =>
        admitted.functionsFree address (addressesSame.mem_iff.mp member)
      functionsDistinct := addressesSame.nodup_iff.mpr admitted.functionsDistinct
      blocksFree := fun block member => admitted.blocksFree block (blocksSame.mem_iff.mp member)
      blocksDistinct := (blocksSame.map Block.address).nodup_iff.mpr admitted.blocksDistinct
      matchesLines := fun block member =>
        admitted.matchesLines block (blocksSame.mem_iff.mp member) }

/-- The first part of a batch is admitted, and so is the rest of it afterwards. -/
theorem Admits.cut (admitted : graph.Admits (drafts ++ more) addresses) :
    graph.Admits drafts (homes drafts) ∧
      ∀ next, graph.Extends drafts next → next.Admits more (homes more) := by
  obtain rfl := admitted.homes_eq
  have exists_resolved := admitted.exists_resolved
  rw [List.forall_mem_append] at exists_resolved
  obtain ⟨_, functionsFree, functionsDistinct, blocksFree, blocksDistinct, matchesLines⟩ := admitted
  rw [homes, List.filterMap_append, List.forall_mem_append] at functionsFree
  rw [homes, List.filterMap_append, List.nodup_append] at functionsDistinct
  rw [List.flatMap_append, List.forall_mem_append] at blocksFree matchesLines
  rw [List.flatMap_append, List.map_append, List.nodup_append] at blocksDistinct
  refine ⟨⟨map_resolvedAddress?_eq exists_resolved.1, functionsFree.1, functionsDistinct.1,
    blocksFree.1, blocksDistinct.1, matchesLines.1⟩, fun next extended =>
    ⟨map_resolvedAddress?_eq exists_resolved.2, fun address member => ?_, functionsDistinct.2.1,
      fun block member => ?_, blocksDistinct.2.1, matchesLines.2⟩⟩
  · refine Option.eq_none_iff_forall_not_mem.mpr fun function found => ?_
    rcases (extended.functions address function).mp found with old | ⟨draft, listed, home, _⟩
    · rw [functionsFree.2 address member] at old
      cases old
    · exact functionsDistinct.2.2 address (mem_homes.mpr ⟨draft, listed, home⟩) address member rfl
  · refine Option.eq_none_iff_forall_not_mem.mpr fun taken found => ?_
    rcases (extended.blocks block.address taken.withoutEdges).mp (by rw [found]; rfl) with
      old | ⟨draft, listed, home, _, other, own, same, _⟩
    · rw [blocksFree.2 block member] at old
      cases old
    · obtain ⟨before, beforeOwn, rfl⟩ := List.mem_map.mp own
      refine blocksDistinct.2.2 before.address ?_ block.address (List.mem_map_of_mem member) same
      exact List.mem_map_of_mem (List.mem_flatMap.mpr ⟨draft, listed, beforeOwn⟩)

/-- A batch may be cut in any way: each part is admitted in its turn, and in the end the graph
has the functions of all of them. -/
theorem exists_foldlM_addFunctions {calls : List (List FunctionDraft × Bool)}
    (sound : graph.Sound) (own : ∀ draft ∈ calls.flatMap Prod.fst, ∀ block ∈ draft.blocks,
      block.ListsOwnEdges) (admitted : graph.Admits (calls.flatMap Prod.fst) addresses) :
    ∃ last, calls.foldlM (fun graph call => graph.addFunctions call.1 call.2) graph = .ok last ∧
      last.Sound ∧ graph.Extends (calls.flatMap Prod.fst) last := by
  induction calls generalizing graph addresses with
  | nil => exact ⟨graph, rfl, sound, Extends.refl graph⟩
  | cons call rest inductionHypothesis =>
    rw [List.flatMap_cons, List.forall_mem_append] at own
    rw [List.flatMap_cons] at admitted
    obtain ⟨here, later⟩ := admitted.cut
    obtain ⟨middle, added⟩ : ∃ middle, graph.addFunctions call.1 call.2 = .ok middle :=
      ⟨_, addFunctions_eq_ok_iff.mpr ⟨_, here, rfl⟩⟩
    have extended := extends_of_addFunctions added
    obtain ⟨last, succeeds, lastSound, others⟩ := inductionHypothesis
      (sound.toLaid.addFunctions own.1 added) own.2 (later middle extended)
    refine ⟨last, ?_, lastSound, extended.trans others⟩
    rw [List.foldlM_cons, added]
    exact succeeds

/-! ### Edge lists grow at their ends -/

/-- The edges that a block listed, in the graph or in the batch, stay in front of the lists. -/
theorem exists_longer_of_addFunctions (sound : graph.Sound)
    (added : graph.addFunctions drafts override = .ok next) :
    ∀ block ∈ graph.blockList ++ drafts.flatMap FunctionDraft.blocks,
      ∃ later, next.blocks[block.address]? = some later ∧ block.edgesOut <+: later.edgesOut ∧
        block.edgesIn <+: later.edgesIn := by
  obtain ⟨addresses, admitted, rfl⟩ := addFunctions_eq_ok_iff.mp added
  have wired {address : Address} {block : Block}
      (found : (graph.placeAll addresses drafts).blocks[address]? = some block) :
      ∃ later, (graph.placeAll addresses drafts).wire.blocks[address]? = some later ∧
        block.edgesOut <+: later.edgesOut ∧ block.edgesIn <+: later.edgesIn := by
    refine ⟨_, by rw [wire, getElem?_foldl_connect, found, Option.map_some], ?_, ?_⟩
    · exact Block.prefix_foldl_insertEdge _ _
    · exact Block.prefix_foldl_insertEdge _ _
  refine List.forall_mem_append.mpr ⟨fun block listed => ?_, fun block member => ?_⟩
  · exact wired (admitted.blocks_kept (sound.mem_blockList.mp listed))
  · obtain ⟨home, adopted⟩ := admitted.exists_adopted member
    have found := admitted.getElem?_blocks.mpr (Or.inl ⟨adopted, rfl⟩)
    obtain ⟨later, there, out, within⟩ := wired found
    exact ⟨later, there, out, within⟩

/-! ### Confluence -/

/-- Whether a graph lists the edges of another one and of a batch, every edge on both of its
ends as far as they are there, and new edges behind the others. -/
structure JoinsEdges (graph : Graph) (drafts : List FunctionDraft) (next : Graph) : Prop where
  listed : ∀ edge, edge ∈ next.listedEdges ↔
    edge ∈ graph.listedEdges ∨ edge ∈ drafts.flatMap FunctionDraft.listedEdges
  leaving : ∀ block ∈ next.blockList, block.edgesOut.Nodup ∧
    ∀ edge, edge ∈ block.edgesOut ↔ edge ∈ next.listedEdges ∧ edge.source = block.address
  entering : ∀ block ∈ next.blockList, block.edgesIn.Nodup ∧
    ∀ edge, edge ∈ block.edgesIn ↔ edge ∈ next.listedEdges ∧ edge.target = block.address
  kept : ∀ block ∈ graph.blockList ++ drafts.flatMap FunctionDraft.blocks,
    ∃ later, next.blocks[block.address]? = some later ∧ block.edgesOut <+: later.edgesOut ∧
      block.edgesIn <+: later.edgesIn

/-- A batch that can be added at once can be added in any order and in any number of calls, and
all of them lead to equal graphs. -/
theorem addFunctions_confluent (reachable : Reachable graph)
    (built : ∀ draft ∈ drafts, ∀ block ∈ draft.blocks, block.Built)
    (added : graph.addFunctions drafts override = .ok next) :
    graph.JoinsEdges drafts next ∧
      ∀ calls : List (List FunctionDraft × Bool), (calls.flatMap Prod.fst).Perm drafts →
        ∃ last, calls.foldlM (fun graph call => graph.addFunctions call.1 call.2) graph =
            .ok last ∧ last.same next = true ∧
          ∀ edge, edge ∈ last.danglingEdges ↔ edge ∈ next.danglingEdges := by
  have own : ∀ draft ∈ drafts, ∀ block ∈ draft.blocks, block.ListsOwnEdges :=
    fun draft member block inside => (built draft member block inside).listsOwnEdges
  have sound := reachable.sound.toLaid.addFunctions own added
  have extended := extends_of_addFunctions added
  refine ⟨⟨extended.edges, fun block listed => ⟨?_, fun edge => sound.mem_edgesOut_iff listed⟩,
    fun block listed => ⟨?_, fun edge => sound.mem_edgesIn_iff listed⟩,
    exists_longer_of_addFunctions reachable.sound added⟩, fun calls same => ?_⟩
  · exact (sound.ownEdges (sound.mem_blockList.mp listed)).nodupOut
  · exact (sound.ownEdges (sound.mem_blockList.mp listed)).nodupIn
  · obtain ⟨addresses, admitted, _⟩ := addFunctions_eq_ok_iff.mp added
    obtain ⟨last, succeeds, lastSound, lastExtends⟩ := exists_foldlM_addFunctions reachable.sound
      (fun draft member => own draft (same.mem_iff.mp member)) (admitted.of_perm same)
    have alike := lastExtends.alike extended fun draft => same.mem_iff
    exact ⟨last, succeeds, alike.same lastSound sound, fun edge => alike.mem_danglingEdges_iff⟩

/-- The loop and its stub may join another stub one by one, the later one first. -/
theorem loopAndStub_in_either_order : ∃ next last,
    stubGraph.addFunctions loopAndStub false = .ok next ∧
      next.danglingEdges = [⟨8, 56, .functionCall⟩] ∧ stubGraph.JoinsEdges loopAndStub next ∧
      [(loopAndStub.drop 1, true), ([], false), (loopAndStub.take 1, false)].foldlM
        (fun graph call => graph.addFunctions call.1 call.2) stubGraph = .ok last ∧
      last.same next = true ∧
      ∀ edge, edge ∈ last.danglingEdges ↔ edge ∈ next.danglingEdges := by
  have succeeds : (stubGraph.addFunctions loopAndStub false).map danglingEdges =
      .ok [⟨8, 56, .functionCall⟩] := by decide +kernel
  obtain ⟨next, added, pending⟩ := Outcome.map_eq_ok_iff.mp succeeds
  obtain ⟨joins, cut⟩ := addFunctions_confluent reachable_stubGraph built_loopAndStub added
  obtain ⟨last, others, same, dangling⟩ := cut
    [(loopAndStub.drop 1, true), ([], false), (loopAndStub.take 1, false)] (List.Perm.swap _ _ _)
  exact ⟨next, last, added, pending, joins, others, same, dangling⟩

end Graph

end FlowGraph
