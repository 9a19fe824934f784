/-
This file says in closed form what a compact graph is built from. In a graph
that is laid out and has no dangling edges, the row of a block can only fail
because of an address that has no signed counterpart; parents and targets are
always found, under their rank. So a build that succeeds has put the rows of all
blocks together, in the order of their addresses.
-/

import FlowGraph.Compact.Build
import FlowGraph.Proofs.Sound
import FlowGraph.Proofs.Tokens

namespace FlowGraph

/-! ### Signed addresses -/

/-- Whether all addresses of a block have a signed counterpart. -/
structure Block.Signed (block : Block) : Prop where
  own : block.address.toNat < 2 ^ 63
  lines : ∀ address ∈ block.lineAddresses, address.toNat < 2 ^ 63

instance (block : Block) : Decidable block.Signed :=
  decidable_of_iff
    (block.address.toNat < 2 ^ 63 ∧
      block.lineAddresses.all fun address => address.toNat < 2 ^ 63)
    ⟨fun both => ⟨both.1, fun _ member => of_decide_eq_true (List.all_eq_true.mp both.2 _ member)⟩,
      fun signed => ⟨signed.own,
        List.all_eq_true.mpr fun _ member => decide_eq_true (signed.lines _ member)⟩⟩

/-- The addresses of the lines of a block as a compact graph keeps them. -/
def Block.signedLines (block : Block) : List Int :=
  if block.hasLineAddresses then block.lineAddresses.map fun address => (address.toNat : Int)
  else List.replicate block.lines.length (-1)

namespace Compact

theorem signedAddress_eq_ok_iff {address : Address} {value : Int} :
    signedAddress address = .ok value ↔
      address.toNat < 2 ^ 63 ∧ (address.toNat : Int) = value := by
  unfold signedAddress
  split
  · rename_i small
    exact ⟨fun equal => ⟨small, Except.ok.inj equal⟩, fun both => congrArg Except.ok both.2⟩
  · rename_i large
    exact ⟨fun equal => (nomatch equal), fun both => absurd both.1 large⟩

theorem signedLineAddresses_eq_ok_iff {block : Block} {values : List Int} :
    signedLineAddresses block = .ok values ↔
      (∀ address ∈ block.lineAddresses, address.toNat < 2 ^ 63) ∧ block.signedLines = values := by
  unfold signedLineAddresses Block.signedLines
  split
  · exact Outcome.mapM_eq_ok_iff_map fun address _ value => signedAddress_eq_ok_iff
  · rename_i without
    rw [Block.hasLineAddresses_iff, Decidable.not_not] at without
    rw [without]
    refine ⟨fun equal => ⟨fun _ member => (List.not_mem_nil member).elim, Except.ok.inj equal⟩,
      fun both => congrArg Except.ok both.2⟩

/-! ### Ranks of targets and parents -/

theorem targetNumbers_eq_ok_iff {Content : Type} {table : AddressMap Content} {edges : List Edge}
    {numbers : List Nat} :
    targetNumbers table.ranks edges = .ok numbers ↔
      (∀ edge ∈ edges, edge.target ∈ table.addresses) ∧
        (edges.map fun edge => table.rank edge.target) = numbers := by
  refine Outcome.mapM_eq_ok_iff_map fun edge _ number => ?_
  by_cases member : edge.target ∈ table.addresses
  · rw [AddressMap.getElem?_ranks_of_mem member]
    exact ⟨fun equal => ⟨member, Except.ok.inj equal⟩, fun both => congrArg Except.ok both.2⟩
  · rw [AddressMap.getElem?_ranks_of_not_mem member]
    exact ⟨fun equal => (nomatch equal), fun both => absurd both.1 member⟩

end Compact

namespace Graph

variable {graph : Graph}

/-- The rank of the function that a block belongs to. -/
def parentRank (graph : Graph) (block : Block) : Nat :=
  graph.functions.rank (block.parent.getD 0)

/-- The ranks of the blocks that a block calls. -/
def callRanks (graph : Graph) (block : Block) : List Nat :=
  (Block.splitEdges block.edgesOut).2.map fun edge => graph.blocks.rank edge.target

/-- The ranks of the blocks that normal edges of a block lead to. -/
def normalRanks (graph : Graph) (block : Block) : List Nat :=
  (Block.splitEdges block.edgesOut).1.map fun edge => graph.blocks.rank edge.target

theorem mem_splitEdges {edges : List Edge} {edge : Edge} :
    edge ∈ edges ↔
      edge ∈ (Block.splitEdges edges).1 ∨ edge ∈ (Block.splitEdges edges).2 := by
  simp only [Block.splitEdges, List.partition_eq_filter_filter, List.mem_filter,
    Function.comp_apply]
  cases edge.kind == .normal <;> simp

theorem kind_of_mem_normal {edges : List Edge} {edge : Edge}
    (member : edge ∈ (Block.splitEdges edges).1) : edge.kind = .normal := by
  rw [Block.splitEdges, List.partition_eq_filter_filter] at member
  exact beq_iff_eq.mp (List.mem_filter.mp member).2

theorem kind_of_mem_calls {edges : List Edge} {edge : Edge}
    (member : edge ∈ (Block.splitEdges edges).2) : edge.kind = .functionCall := by
  rw [Block.splitEdges, List.partition_eq_filter_filter] at member
  have other := (List.mem_filter.mp member).2
  cases kind : edge.kind with
  | normal => simp [kind] at other
  | functionCall => rfl

theorem hasCall_eq_not_isEmpty (block : Block) :
    block.hasCall = !(Block.splitEdges block.edgesOut).2.isEmpty := by
  rw [Bool.eq_iff_iff, Block.hasCall, List.any_eq_true, Bool.not_eq_true',
    List.isEmpty_eq_false_iff_exists_mem]
  constructor
  · rintro ⟨edge, member, call⟩
    rcases mem_splitEdges.mp member with normal | called
    · rw [Edge.isCall, kind_of_mem_normal normal] at call
      cases call
    · exact ⟨edge, called⟩
  · rintro ⟨edge, member⟩
    refine ⟨edge, mem_splitEdges.mpr (Or.inr member), ?_⟩
    rw [Edge.isCall, kind_of_mem_calls member]
    rfl

theorem Laid.parentNumber_eq (laid : graph.Laid) {block : Block}
    (listed : block ∈ graph.blockList) :
    Compact.parentNumber graph.functions.ranks block = .ok (graph.parentRank block) := by
  obtain ⟨function, found, parent⟩ := laid.exists_parent listed
  simp only [Compact.parentNumber, parentRank, parent, Option.bind_some, Option.getD_some,
    AddressMap.getElem?_ranks_of_mem (AddressMap.mem_addresses_of_getElem? found)]

theorem Laid.parentRank_lt (laid : graph.Laid) {block : Block} (listed : block ∈ graph.blockList) :
    graph.parentRank block < graph.functionList.length := by
  obtain ⟨function, found, parent⟩ := laid.exists_parent listed
  rw [parentRank, parent, Option.getD_some, functionList, AddressMap.length_contents]
  exact AddressMap.rank_lt_size (AddressMap.mem_addresses_of_getElem? found)

/-- The rank of its parent tells which function a block belongs to. -/
theorem Laid.parentRank_eq_iff (laid : graph.Laid) {block : Block}
    (listed : block ∈ graph.blockList) {home : Address} {function : Function}
    (found : graph.functions[home]? = some function) :
    graph.parentRank block = graph.functions.rank home ↔ block.parent = some home := by
  obtain ⟨owner, ownerFound, parent⟩ := laid.exists_parent listed
  rw [parentRank, parent, Option.getD_some, Option.some.injEq]
  refine ⟨fun same => ?_, fun same => by rw [same]⟩
  exact AddressMap.rank_inj (AddressMap.mem_addresses_of_getElem? ownerFound)
    (AddressMap.mem_addresses_of_getElem? found) same

theorem mem_danglingEdges {edge : Edge} :
    edge ∈ graph.danglingEdges ↔ edge ∈ graph.listedEdges ∧ graph.spans edge = false := by
  simp only [danglingEdges, Block.mem_foldl_insertEdge, List.not_mem_nil, false_or,
    List.mem_filter, Bool.not_eq_true']

theorem danglingEdges_eq_nil_iff :
    graph.danglingEdges = [] ↔ ∀ edge ∈ graph.listedEdges, graph.spans edge = true := by
  rw [List.eq_nil_iff_forall_not_mem]
  simp only [mem_danglingEdges, not_and, Bool.not_eq_false]

/-- An edge out of a block of a graph without dangling edges leads to a block. -/
theorem target_mem_addresses (closed : graph.danglingEdges = []) {block : Block}
    (listed : block ∈ graph.blockList) {edge : Edge} (member : edge ∈ block.edgesOut) :
    edge.target ∈ graph.blocks.addresses := by
  have edgeListed : edge ∈ graph.listedEdges :=
    List.mem_flatMap.mpr ⟨block, listed, List.mem_append_left _ member⟩
  exact (AddressMap.mem_addresses _ _).mpr
    ((spans_iff graph edge).mp (danglingEdges_eq_nil_iff.mp closed edge edgeListed)).2

/-! ### Rows -/

/-- The row of a block, provided its addresses can be kept. -/
def plainRow (graph : Graph) (keepAddresses : Bool) (block : Block) : Compact.Row where
  lineCount := block.lines.length
  address := if keepAddresses then (block.address.toNat : Int) else 0
  lineAddresses := if keepAddresses then block.signedLines else []
  function := graph.parentRank block
  targets := Compact.encodeTargets (graph.callRanks block) (graph.normalRanks block)
  flags := BlockFlags.ofBlock graph block
    (Compact.needsSeparator (graph.callRanks block) (graph.normalRanks block))
  metadata := block.metadata

theorem Laid.row_eq_ok_iff (laid : graph.Laid) (closed : graph.danglingEdges = [])
    {keepAddresses : Bool} {block : Block} (listed : block ∈ graph.blockList)
    (row : Compact.Row) :
    Compact.row graph (.ofGraph graph) keepAddresses block = .ok row ↔
      (keepAddresses = true → block.Signed) ∧ graph.plainRow keepAddresses block = row := by
  have targets (edge : Edge) (member : edge ∈ block.edgesOut) :
      edge.target ∈ graph.blocks.addresses := target_mem_addresses closed listed member
  have calls : Compact.targetNumbers graph.blocks.ranks (Block.splitEdges block.edgesOut).2 =
      .ok (graph.callRanks block) :=
    Compact.targetNumbers_eq_ok_iff.mpr
      ⟨fun edge member => targets edge (mem_splitEdges.mpr (Or.inr member)), rfl⟩
  have normals : Compact.targetNumbers graph.blocks.ranks (Block.splitEdges block.edgesOut).1 =
      .ok (graph.normalRanks block) :=
    Compact.targetNumbers_eq_ok_iff.mpr
      ⟨fun edge member => targets edge (mem_splitEdges.mpr (Or.inl member)), rfl⟩
  have parent := laid.parentNumber_eq listed
  unfold Compact.row plainRow Compact.Numbering.ofGraph
  dsimp only
  rw [parent, calls, normals]
  cases keepAddresses with
  | false =>
    simp only [Bool.false_eq_true, if_false, false_implies, true_and]
    exact ⟨Except.ok.inj, congrArg Except.ok⟩
  | true =>
    simp only [if_true, true_implies]
    rw [Outcome.bind_eq_ok_iff]
    constructor
    · rintro ⟨address, addressFits, continued⟩
      obtain ⟨lines, linesFit, equal⟩ := Outcome.bind_eq_ok_iff.mp continued
      obtain ⟨own, rfl⟩ := Compact.signedAddress_eq_ok_iff.mp addressFits
      obtain ⟨others, rfl⟩ := Compact.signedLineAddresses_eq_ok_iff.mp linesFit
      exact ⟨⟨own, others⟩, Except.ok.inj equal⟩
    · rintro ⟨signed, rfl⟩
      refine ⟨_, Compact.signedAddress_eq_ok_iff.mpr ⟨signed.own, rfl⟩, ?_⟩
      rw [Compact.signedLineAddresses_eq_ok_iff.mpr ⟨signed.lines, rfl⟩]
      rfl

end Graph

/-! ### Columns -/

namespace Compact

/-- The compact graph of a graph over a store, provided its addresses can be kept. -/
def columnsOf (pool : Pool) (graph : Graph) (store : TokenStore) (keepAddresses : Bool) : Compact :=
  let registered := store.register pool (graph.blockList.flatMap Block.lines)
  ofRows graph keepAddresses registered.store (registered.store.contents registered.pool).size
    registered.numbers (graph.blockList.map (graph.plainRow keepAddresses))

/-- The pool after the lines of a graph were registered. -/
def poolAfter (pool : Pool) (graph : Graph) (store : TokenStore) : Pool :=
  (store.register pool (graph.blockList.flatMap Block.lines)).pool

/-- When a build succeeds, and with which result. -/
theorem ofNormalized_eq_ok_iff {pool after : Pool} {graph : Graph} {store : TokenStore}
    {keepAddresses : Bool} {compact : Compact} (laid : graph.Laid) :
    ofNormalized pool graph store keepAddresses = (.ok compact, after) ↔
      graph.danglingEdges = [] ∧
        (keepAddresses = true → ∀ block ∈ graph.blockList, block.Signed) ∧
        columnsOf pool graph store keepAddresses = compact ∧
        poolAfter pool graph store = after := by
  unfold ofNormalized
  cases closed : graph.danglingEdges with
  | cons edge rest =>
    refine ⟨fun equal => ?_, fun all => (nomatch all.1)⟩
    exact nomatch congrArg Prod.fst equal
  | nil =>
    have rows (results : List Row) :
        graph.blockList.mapM (row graph (.ofGraph graph) keepAddresses) = .ok results ↔ _ :=
      Outcome.mapM_eq_ok_iff_map fun block listed => laid.row_eq_ok_iff closed listed
    simp only [Prod.mk.injEq, Outcome.bind_eq_ok_iff, rows, true_and]
    constructor
    · rintro ⟨⟨_, ⟨signed, rfl⟩, equal⟩, pools⟩
      exact ⟨fun keeps block listed => signed block listed keeps, Except.ok.inj equal, pools⟩
    · rintro ⟨signed, equal, pools⟩
      exact ⟨⟨_, ⟨fun block listed keeps => signed keeps block listed, rfl⟩,
        congrArg Except.ok equal⟩, pools⟩

end Compact

end FlowGraph
