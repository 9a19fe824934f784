/-
This file says what comes back when a graph was compacted with its addresses.
Expanding never fails. All blocks come back with their addresses, lines, edges
and metadata, and only their labels are lost. A function comes back with its
blocks, its flag and its metadata, but where it stands is read off its blocks:
at its entry block, or else at the lowest one. So a function without blocks does
not come back, and one without an entry block moves.
-/

import FlowGraph.Proofs.Restored

namespace FlowGraph

/-! ### What comes back -/

/-- Whether a function came back at a block, with the name that it was numbered under. A name that
only restates the address of the block is dropped. -/
structure Function.Returns (function returned : Function) (anchor : Address) (name : String) :
    Prop where
  address : returned.address = anchor
  name : returned.name = if name = unnamedFunctionName anchor then none else some name
  isExternal : returned.isExternal = function.isExternal
  metadata : returned.metadata = function.metadata
  blocks : ∀ address, address ∈ returned.blocks ↔ address ∈ function.blocks

/-- Whether a block came back, without labels and with its lines rewritten. -/
structure Block.Returns (rewrite : String → String) (block returned : Block) : Prop where
  address : returned.address = block.address
  labels : returned.labels = ∅
  lines : returned.lines = block.lines.map rewrite
  lineAddresses : returned.lineAddresses = block.lineAddresses
  metadata : returned.metadata = block.metadata
  edgesOut : ∀ edge, edge ∈ returned.edgesOut ↔ edge ∈ block.edgesOut
  edgesIn : ∀ edge, edge ∈ returned.edgesIn ↔ edge ∈ block.edgesIn

/-- Whether a graph came back from a compact graph: all of its blocks, and each of its functions
that has blocks, at one of these. -/
structure Graph.Returns (rewrite : String → String) (compact : Compact) (graph returned : Graph) :
    Prop where
  metadata : returned.metadata = graph.metadata
  functionAddresses :
    returned.functions.addresses.Perm (graph.functionList.filterMap Function.anchor?)
  functions : ∀ {number : Nat} {function : Function} {anchor : Address},
    graph.functionList[number]? = some function → function.anchor? = some anchor →
      ∃ name back, compact.functionName number = .ok name ∧
        returned.functions[anchor]? = some back ∧ function.Returns back anchor name
  blockAddresses : returned.blocks.addresses = graph.blocks.addresses
  blocks : ∀ {address : Address} {block : Block}, graph.blocks[address]? = some block →
    ∃ back, returned.blocks[address]? = some back ∧ block.Returns rewrite back ∧
      back.parent = block.parent.bind fun home => graph.functions[home]?.bind Function.anchor?

namespace Graph

variable {graph : Graph} {block : Block}

/-! ### The restored graph with addresses -/

theorem movedAddress_kept (graph : Graph) : graph.movedAddress true = id := rfl

theorem mem_movedEdges_kept (laid : graph.Laid) (listed : block ∈ graph.blockList) {edge : Edge} :
    edge ∈ graph.movedEdges true block ↔ edge ∈ block.edgesOut := by
  have own := (laid.ownEdges (laid.mem_blockList.mp listed)).leaves
  rw [movedEdges, List.mem_map]
  simp only [mem_callsFirst, movedAddress_kept, id]
  constructor
  · rintro ⟨before, member, rfl⟩
    rw [← own before member]
    exact member
  · intro member
    refine ⟨edge, member, ?_⟩
    rw [← own edge member]

theorem map_anchor_anchored (graph : Graph) :
    graph.anchored.map Anchored.anchor = graph.functionList.filterMap Function.anchor? := by
  have functions := List.map_snd_zip (Nat.le_of_eq (Compact.length_namesOf graph.functionList).symm)
  rw [anchored, List.map_filterMap]
  conv_rhs => rw [← functions, List.filterMap_map]
  refine List.filterMap_congr fun entry _ => ?_
  rw [Option.map_map]
  exact Option.map_id'

theorem functionAddresses_perm (laid : graph.Laid) (word : graph.blockList.length < 2 ^ 64) :
    (graph.restored true).functions.addresses.Perm
      (graph.functionList.filterMap Function.anchor?) := by
  have distinct := (admits_namedDrafts true laid word).functionsDistinct
  have homes : graph.movedHomes true = graph.functionList.filterMap Function.anchor? :=
    map_anchor_anchored graph
  rw [← homes]
  refine (List.perm_ext_iff_of_nodup (AddressMap.nodup_addresses _) distinct).mpr fun address => ?_
  rw [AddressMap.mem_addresses, movedHomes, List.mem_map]
  simp only [getElem?_functions_restored laid word]
  constructor
  · rintro ⟨_, entry, member, same, _⟩
    exact ⟨entry, member, same⟩
  · rintro ⟨entry, member, same⟩
    exact ⟨_, entry, member, same, rfl⟩

/-- Every block is found at its own address, but for the edges that enter it. -/
theorem exists_back (laid : graph.Laid) (closed : graph.danglingEdges = [])
    (word : graph.blockList.length < 2 ^ 64) {address : Address}
    (found : graph.blocks[address]? = some block) : ∃ edgesIn,
    (graph.restored true).blocks[address]? =
      some { graph.restoredBlock true block with edgesIn } := by
  obtain rfl := laid.blockKey found
  exact block_restored laid closed word (AddressMap.mem_contents_of_getElem? found)

/-- A block comes back with the edges that enter it: they are listed where they leave. -/
theorem mem_edgesIn_restored (sound : graph.Sound) (closed : graph.danglingEdges = [])
    (word : graph.blockList.length < 2 ^ 64) {address : Address} {back : Block}
    (found : graph.blocks[address]? = some block)
    (backFound : (graph.restored true).blocks[address]? = some back) (edge : Edge) :
    edge ∈ back.edgesIn ↔ edge ∈ block.edgesIn := by
  have restoredSound : (graph.restored true).Sound := (laid_unwired sound.toLaid closed word).wire
  constructor
  · intro member
    have target := (restoredSound.ownEdges backFound).enters edge member
    rw [restoredSound.blockKey backFound] at target
    obtain ⟨old, oldListed, moved⟩ := mem_listedEdges_restored sound.toLaid word
      ((mem_listedEdges _ edge).mpr ⟨address, back, backFound, Or.inr member⟩)
    have leaving := (mem_movedEdges_kept sound.toLaid oldListed).mp moved
    have listed : edge ∈ graph.listedEdges := (mem_listedEdges graph edge).mpr
      ⟨old.address, old, sound.mem_blockList.mp oldListed, Or.inl leaving⟩
    exact (sound.symmetric edge listed).2 block (target ▸ found)
  · intro member
    have target := (sound.ownEdges found).enters edge member
    rw [sound.blockKey found] at target
    have listed : edge ∈ graph.listedEdges :=
      (mem_listedEdges graph edge).mpr ⟨address, block, found, Or.inr member⟩
    obtain ⟨⟨source, sourceFound⟩, _⟩ :=
      (spans_iff graph edge).mp (danglingEdges_eq_nil_iff.mp closed edge listed)
    have leaving := (sound.symmetric edge listed).1 source sourceFound
    obtain ⟨edgesIn, sourceBack⟩ := exists_back sound.toLaid closed word sourceFound
    have restoredListed : edge ∈ (graph.restored true).listedEdges :=
      (mem_listedEdges _ edge).mpr ⟨_, _, sourceBack, Or.inl ((mem_movedEdges_kept sound.toLaid
        (AddressMap.mem_contents_of_getElem? sourceFound)).mpr leaving)⟩
    exact (restoredSound.symmetric edge restoredListed).2 back (target ▸ backFound)

/-- A graph comes back if a graph with rewritten lines does. -/
theorem Returns.of_rewrites {rewrite : String → String} {next returned : Graph} {compact : Compact}
    (returns : next.Returns id compact returned) (rewrites : graph.Rewrites rewrite next) :
    graph.Returns rewrite compact returned where
  metadata := returns.metadata.trans rewrites.metadata
  functionAddresses := by
    have perm := returns.functionAddresses
    rwa [functionList, rewrites.functions] at perm
  functions found := returns.functions (by rwa [functionList, rewrites.functions])
  blockAddresses := returns.blockAddresses.trans rewrites.addresses
  blocks {address block} found := by
    have there := rewrites.getElem?_blocks address
    rw [found, Option.map_some] at there
    obtain ⟨back, backFound, same, parent⟩ := returns.blocks there
    rw [rewrites.functions] at parent
    exact ⟨back, backFound, ⟨same.address, same.labels, same.lines.trans (List.map_id _),
      same.lineAddresses, same.metadata, same.edgesOut, same.edgesIn⟩, parent⟩

end Graph

namespace Compact

variable {pool middle after : Pool} {graph next : Graph} {normalizer : Normalizer}
  {force : Bool} {compact : Compact}

theorem functionName_columnsOf {store : TokenStore} {keepAddresses : Bool} {number : Nat}
    {function : Function} {name : String}
    (found : graph.functionList[number]? = some function)
    (named : (namesOf graph.functionList)[number]? = some name) :
    (columnsOf pool graph store keepAddresses).functionName number = .ok name := by
  have names : (columnsOf pool graph store keepAddresses).functionNames =
      namesOf graph.functionList := functionNames_eq rfl
  rw [functionName, checkFunction_columnsOf found, names, named]
  rfl

theorem function_returns (laid : graph.Laid) (word : graph.blockList.length < 2 ^ 64)
    {number : Nat} {function : Function} {anchor : Address}
    (found : graph.functionList[number]? = some function)
    (there : function.anchor? = some anchor) : ∃ name back,
    (columnsOf pool graph .empty true).functionName number = .ok name ∧
      (graph.restored true).functions[anchor]? = some back ∧
      function.Returns back anchor name := by
  have functionFound := laid.mem_functionList.mp (List.mem_of_getElem? found)
  obtain ⟨name, named, backFound⟩ : ∃ name,
      (namesOf graph.functionList)[graph.functions.rank function.address]? = some name ∧
        (graph.restored true).functions[anchor]? =
          some ((graph.namedDraft true ⟨name, function, anchor⟩).placed anchor) :=
    Graph.function_restored laid word functionFound there
  obtain ⟨home, homeFound, rank⟩ := AddressMap.getElem?_contents_eq_some_iff.mp found
  obtain rfl := laid.functionKey homeFound
  rw [rank] at named
  refine ⟨name, _, functionName_columnsOf found named, backFound, rfl, rfl, rfl, rfl,
    fun address => ?_⟩
  rw [← Graph.mem_address_ownBlocks laid functionFound]
  change address ∈ ((graph.ownBlocks (graph.functions.rank function.address)).map
    (graph.rebuiltBlock true)).map Block.address ↔ _
  rw [Graph.map_address_rebuiltBlock, Graph.movedAddress_kept, List.map_id]

theorem returns_restored (sound : graph.Sound) (closed : graph.danglingEdges = [])
    (word : graph.blockList.length < 2 ^ 64) :
    graph.Returns id (columnsOf pool graph .empty true) (graph.restored true) where
  metadata := (Graph.records_restored graph true).2
  functionAddresses := Graph.functionAddresses_perm sound.toLaid word
  functions found there := function_returns sound.toLaid word found there
  blockAddresses := by
    rw [Graph.blockAddresses_restored sound.toLaid closed word, Graph.movedAddress_kept,
      List.map_id]
  blocks {address block} found := by
    obtain ⟨edgesIn, backFound⟩ := Graph.exists_back sound.toLaid closed word found
    refine ⟨_, backFound, ⟨rfl, rfl, (List.map_id _).symm, rfl, rfl, fun edge => ?_,
      Graph.mem_edgesIn_restored sound closed word found backFound⟩, Option.map_id_apply ..⟩
    exact Graph.mem_movedEdges_kept sound.toLaid (AddressMap.mem_contents_of_getElem? found)

/-! ### Expanding what was compacted -/

/-- A function without blocks, and a function whose only block is not its entry. -/
def looseFunctions : List FunctionDraft :=
  [⟨some 16, none, false, ∅, []⟩,
    ⟨some 32, none, true, ∅, [{ Block.new 40 with lines := ["ret"], lineAddresses := [40] }]⟩]

/-- The graph of these functions, as a normalized one. -/
def looseGraph : Graph :=
  { Graph.empty.unlessFails (Graph.empty.addFunctions looseFunctions false) with
    normalizer := some "base" }

theorem reachable_looseGraph : looseGraph.Reachable := by
  refine ((Graph.Reachable.withMetadata ∅).addFunctions false ?_).withRecords (some "base") _ _
  refine List.forall_mem_cons.mpr ⟨fun _ member => (List.not_mem_nil member).elim, ?_⟩
  refine List.forall_mem_singleton.mpr (List.forall_mem_singleton.mpr ?_)
  exact (Block.Built.new 40).fill ∅ ["ret"] [40] ∅

/-- Its compact graph. -/
def looseColumns : Compact := columnsOf [] looseGraph .empty true

theorem ofGraph_looseGraph :
    ofGraph [] looseGraph (some .base) none ⟨true, false⟩ = (.ok looseColumns, []) := by
  have sound := reachable_looseGraph.sound
  have signed : ∀ block ∈ looseGraph.blockList, block.Signed := by decide
  exact ofGraph_eq_ok_iff.mpr ⟨_, _, rfl, (ofNormalized_eq_ok_iff sound.toLaid).mpr
    ⟨by decide, fun _ => signed, rfl, rfl⟩⟩

/-- A compact graph with addresses can be expanded, and the graph that was compacted comes back
with its lines normalized, but for its labels and the functions without blocks. -/
theorem expanded_returns (reachable : graph.Reachable)
    (built : ofGraph pool graph (some normalizer) none ⟨true, force⟩ = (.ok compact, after))
    (few : (compact.tokens.contents after).size ≤ 2 ^ 32) (sized : compact.MemorySized)
    (current : Pool) : ∃ returned, compact.toGraph current = .ok returned ∧
      graph.Returns (if graph.normalizer = some normalizer.name ∧ !force then id
        else normalizer.normalizeLine) compact returned := by
  obtain ⟨next, middle, prepared, built⟩ := ofGraph_eq_ok_iff.mp built
  obtain ⟨_, _, otherPrepared, _, rewrites⟩ := exists_source pool graph normalizer force
  cases prepared.symm.trans otherPrepared
  have sound := (reachable_of_source prepared reachable).sound
  change ofNormalized middle next .empty true = (.ok compact, after) at built
  obtain ⟨closed, signed, rfl, rfl⟩ := (ofNormalized_eq_ok_iff sound.toLaid).mp built
  have fits : Fits middle next .empty true :=
    ⟨sound.toLaid, closed, signed, TokenStore.livesIn_empty middle,
      contents_tokens_own middle _ next true ▸ few, sized.toWordSized⟩
  exact ⟨_, toGraph_restored fits sized current,
    (returns_restored sound closed fits.word).of_rewrites rewrites⟩

theorem looseColumns_return : ∃ returned, looseColumns.toGraph [] = .ok returned ∧
    looseGraph.Returns (if looseGraph.normalizer = some Normalizer.base.name ∧ !false then id
      else Normalizer.base.normalizeLine) looseColumns returned :=
  expanded_returns reachable_looseGraph ofGraph_looseGraph (by decide)
    ⟨⟨by decide, by decide, by decide, by decide⟩, by decide, by decide⟩ []

/-- The function without blocks does not come back, and the other one moves to its block. -/
theorem looseColumns_move_functions :
    looseGraph.Reachable ∧
      ofGraph [] looseGraph (some .base) none ⟨true, false⟩ = (.ok looseColumns, []) ∧
      looseGraph.functions.addresses = [16, 32] ∧
      ∃ returned, looseColumns.toGraph [] = .ok returned ∧
        returned.functions.addresses = [40] :=
  ⟨reachable_looseGraph, ofGraph_looseGraph, by decide, _, rfl, by decide⟩

end Compact

end FlowGraph
