/-
This file proves that a graph and its compact form have the same adjacency
matrices. Both list the targets of the blocks in turn, the calls of a block
before its normal edges, the one from live edges and the other from its
columns, so their coordinates are the same in the same order.

In a dense matrix the value that was written last stays. A normal edge is
written after the calls between the same blocks, so it hides them. Hence a
dense matrix can be read off the set of edges, and equal graphs have the same
one, though they may list their edges in different orders.
-/

import FlowGraph.Compact.Expand
import FlowGraph.Proofs.Equality
import FlowGraph.Proofs.Lossless

namespace FlowGraph

/-! ### Squares -/

namespace Matrix

/-- The square of the values of a function of row and column. -/
def square (size : Nat) (value : Nat → Nat → Nat) : List (List Nat) :=
  (List.range size).map fun row => (List.range size).map (value row)

theorem setEntry_square (size : Nat) (value : Nat → Nat → Nat) (row column new : Nat) :
    setEntry (square size value) row column new =
      square size fun otherRow otherColumn =>
        if (row, column) = (otherRow, otherColumn) then new else value otherRow otherColumn := by
  refine List.ext_getElem (by simp [setEntry, square]) fun number inside _ => ?_
  simp only [setEntry, square, List.getElem_modify, List.getElem_map, List.getElem_range,
    Prod.mk.injEq]
  split
  · rename_i here
    refine List.ext_getElem (by simp) fun place _ _ => ?_
    simp [List.getElem_set, here]
  · rename_i elsewhere
    simp [elsewhere]

/-- Each value of a square that entries are written into is the last one written there. -/
theorem foldl_setEntry_square (entries : List ((Nat × Nat) × Nat)) (size : Nat)
    (value : Nat → Nat → Nat) :
    entries.foldl (fun rows entry => setEntry rows entry.1.1 entry.1.2 entry.2)
        (square size value) =
      square size fun row column => entries.foldl
        (fun last entry => if entry.1 = (row, column) then entry.2 else last)
        (value row column) := by
  induction entries generalizing value with
  | nil => rfl
  | cons entry rest inductionHypothesis =>
    rw [List.foldl_cons, setEntry_square, inductionHypothesis]
    rfl

theorem ofCoordinates_dense (size : Nat) (entries : List ((Nat × Nat) × Nat)) :
    ofCoordinates size (entries.map Prod.fst) (entries.map Prod.snd) false =
      .dense (square size fun row column => entries.foldl
        (fun last entry => if entry.1 = (row, column) then entry.2 else last) 0) := by
  have zeros : List.replicate size (List.replicate size 0) = square size fun _ _ => 0 := by
    simp [square, List.map_const']
  have zipped : (entries.map Prod.fst).zip (entries.map Prod.snd) = entries := by
    rw [List.zip_map', List.map_id']
  simp only [ofCoordinates, Bool.false_eq_true, if_false]
  rw [zipped, zeros, foldl_setEntry_square]

theorem square_eq_map {addresses : List Address} {value : Nat → Nat → Nat}
    {entry : Address → Address → Nat}
    (each : ∀ {row column : Nat} {source target : Address}, addresses[row]? = some source →
      addresses[column]? = some target → value row column = entry source target) :
    square addresses.length value =
      addresses.map fun source => addresses.map (entry source) := by
  refine List.ext_getElem (by simp [square]) fun row _ rowInside => ?_
  rw [List.length_map] at rowInside
  refine List.ext_getElem (by simp [square]) fun column _ columnInside => ?_
  rw [List.getElem_map, List.length_map] at columnInside
  simp only [square, List.getElem_map, List.getElem_range]
  exact each (List.getElem?_eq_getElem rowInside) (List.getElem?_eq_getElem columnInside)

end Matrix

/-! ### Coordinates -/

namespace Graph

variable {graph other left right : Graph}

/-- The targets of all blocks by rank with the rank of the source, calls first. -/
def rankedEntries (graph : Graph) : List ((Nat × Nat) × EdgeKind) :=
  graph.blockList.zipIdx.flatMap fun (block, number) =>
    (graph.typedRanks block).map fun target => ((number, target.1), target.2)

/-- The matrix of the targets by rank. -/
def rankedMatrix (graph : Graph) (sparse : Bool) : Matrix :=
  Matrix.ofCoordinates graph.blockCount (graph.rankedEntries.map Prod.fst)
    (graph.rankedEntries.map fun entry => entry.2.code) sparse

theorem mem_callsFirst_iff {block : Block} {edge : Edge} :
    edge ∈ callsFirst block ↔ edge ∈ block.edgesOut :=
  List.mem_append.trans (or_comm.trans mem_splitEdges.symm)

theorem mem_edges {edge : Edge} :
    edge ∈ graph.edges ↔ ∃ block ∈ graph.blockList, edge ∈ block.edgesOut := List.mem_flatMap

/-- The matrix of a graph whose edges all lead to blocks. -/
theorem adjacency_eq_rankedMatrix
    (inside : ∀ edge ∈ graph.edges, edge.target ∈ graph.blocks.addresses) {backend : String}
    (accepted : Matrix.checkBackend backend = .ok ()) (sparse : Bool) :
    graph.adjacency backend sparse = .ok (graph.rankedMatrix sparse) := by
  have rows : graph.blockList.mapM (rowEntries graph.blocks.ranks) =
      .ok (graph.blockList.map fun block =>
        (graph.typedRanks block).map fun target => (target.1, target.2.code)) := by
    refine Outcome.mapM_eq_ok_iff.mpr ?_
    rw [List.forall₂_map_right_iff, List.forall₂_same]
    intro block listed
    refine Outcome.mapM_eq_ok_iff.mpr ?_
    rw [typedRanks, List.map_map, List.forall₂_map_right_iff, List.forall₂_same]
    intro edge member
    have leadsInside := inside edge (mem_edges.mpr ⟨block, listed, mem_callsFirst_iff.mp member⟩)
    rw [AddressMap.getElem?_ranks_of_mem leadsInside]
    rfl
  rw [adjacency, accepted, rows]
  refine congrArg Except.ok ?_
  simp only [rankedMatrix, rankedEntries, List.map_flatMap, List.zipIdx_map, List.flatMap_map,
    List.map_map, Function.comp_def, Prod.map_fst, Prod.map_snd, id_eq]

/-! ### Values -/

/-- The value of a dense matrix from one block to another: that of a normal edge if there is one,
or else that of a call, or else zero. -/
def entryBetween (graph : Graph) (source target : Address) : Nat :=
  if ⟨source, target, .normal⟩ ∈ graph.edges then 1
  else if ⟨source, target, .functionCall⟩ ∈ graph.edges then 2
  else 0

/-- The rows of values between the blocks of a graph. -/
def entryTable (graph : Graph) : List (List Nat) :=
  graph.blocks.addresses.map fun source => graph.blocks.addresses.map (graph.entryBetween source)

/-- Targets of one kind leave its value in their columns. -/
theorem foldl_targets_of_kind (kind : EdgeKind) (targets : List Nat) (column start : Nat) :
    (targets.map fun target => (target, kind)).foldl
        (fun last target => if target.1 = column then target.2.code else last) start =
      if column ∈ targets then kind.code else start := by
  induction targets generalizing start with
  | nil => rfl
  | cons target rest inductionHypothesis =>
    rw [List.map_cons, List.foldl_cons, inductionHypothesis]
    by_cases here : target = column
    · simp [here]
    · simp [here, Ne.symm here]

/-- The last value of a column in a row: targets of normal edges come after those of calls. -/
theorem foldl_typedRanks (graph : Graph) (block : Block) (column : Nat) :
    (graph.typedRanks block).foldl
        (fun last target => if target.1 = column then target.2.code else last) 0 =
      if column ∈ graph.normalRanks block then 1
      else if column ∈ graph.callRanks block then 2
      else 0 := by
  rw [typedRanks_eq, List.foldl_append, foldl_targets_of_kind, foldl_targets_of_kind]
  rfl

/-- Of the rows with their numbers only the one with a given number changes a value. -/
theorem foldl_zipIdx_of_number {Item Value : Type} (items : List Item)
    (change : Value → Item → Value) (number start : Nat) (value : Value) :
    (items.zipIdx start).foldl
        (fun last entry => if entry.2 = number then change last entry.1 else last) value =
      if start ≤ number then (items[number - start]?.map (change value)).getD value else value := by
  induction items generalizing start value with
  | nil => simp
  | cons item rest inductionHypothesis =>
    rw [List.zipIdx_cons, List.foldl_cons, inductionHypothesis]
    rcases Nat.lt_trichotomy start number with before | rfl | after
    · have further : number - start = (number - (start + 1)) + 1 := by omega
      rw [if_pos (Nat.succ_le_of_lt before), if_pos (Nat.le_of_lt before),
        if_neg (Nat.ne_of_lt before), further, List.getElem?_cons_succ]
    · rw [if_neg (Nat.not_succ_le_self start), if_pos rfl, if_pos (Nat.le_refl start),
        Nat.sub_self, List.getElem?_cons_zero, Option.map_some, Option.getD_some]
    · rw [if_neg (by omega : ¬ start + 1 ≤ number), if_neg (Nat.ne_of_gt after),
        if_neg (by omega : ¬ start ≤ number)]

/-- The last value at a place among all targets comes from the row of the place. -/
theorem foldl_rankedEntries (graph : Graph) (row column : Nat) :
    graph.rankedEntries.foldl
        (fun last entry => if entry.1 = (row, column) then entry.2.code else last) 0 =
      (graph.blockList[row]?.map fun block =>
        if column ∈ graph.normalRanks block then 1
        else if column ∈ graph.callRanks block then 2
        else 0).getD 0 := by
  have oneRow (last : Nat) (listed : Block × Nat) :
      ((graph.typedRanks listed.1).map fun target => ((listed.2, target.1), target.2)).foldl
          (fun last entry => if entry.1 = (row, column) then entry.2.code else last) last =
        if listed.2 = row then (graph.typedRanks listed.1).foldl
          (fun last target => if target.1 = column then target.2.code else last) last
        else last := by
    rw [List.foldl_map]
    by_cases here : listed.2 = row
    · simp only [here, Prod.mk.injEq, true_and, if_true]
    · simp [here]
  have rows := foldl_zipIdx_of_number graph.blockList (fun last block =>
    (graph.typedRanks block).foldl
      (fun last target => if target.1 = column then target.2.code else last) last) row 0 0
  simp only [foldl_typedRanks, Nat.zero_le, if_true, Nat.sub_zero] at rows
  rw [← rows, rankedEntries, List.foldl_flatMap]
  simp only [oneRow]

/-- An edge out of a block is one of the edges of the graph, and it is found at its source. -/
theorem Laid.mem_edges_iff (laid : graph.Laid) {block : Block} (listed : block ∈ graph.blockList)
    {target : Address} {kind : EdgeKind} :
    ⟨block.address, target, kind⟩ ∈ graph.edges ↔
      ⟨block.address, target, kind⟩ ∈ block.edgesOut := by
  refine mem_edges.trans ⟨?_, fun member => ⟨block, listed, member⟩⟩
  rintro ⟨owner, ownerListed, member⟩
  have found := laid.mem_blockList.mp ownerListed
  have source := (laid.ownEdges found).leaves _ member
  rw [← source, laid.mem_blockList.mp listed, Option.some.injEq] at found
  exact found ▸ member

variable (laid : graph.Laid)
  (inside : ∀ edge ∈ graph.edges, edge.target ∈ graph.blocks.addresses)
include laid inside

/-- The ranks of targets tell which edges of a kind there are. -/
theorem rank_mem_iff {block : Block} (listed : block ∈ graph.blockList) {target : Address}
    (present : target ∈ graph.blocks.addresses) (kind : EdgeKind) :
    (graph.blocks.rank target, kind) ∈ graph.typedRanks block ↔
      ⟨block.address, target, kind⟩ ∈ graph.edges := by
  rw [laid.mem_edges_iff listed, typedRanks, List.mem_map]
  constructor
  · rintro ⟨edge, member, same⟩
    rw [Prod.mk.injEq] at same
    have leaving := mem_callsFirst_iff.mp member
    have targets := AddressMap.rank_inj (inside edge (mem_edges.mpr ⟨block, listed, leaving⟩))
      present same.1
    have source := (laid.ownEdges (laid.mem_blockList.mp listed)).leaves edge leaving
    rw [← source, ← targets, ← same.2]
    exact leaving
  · exact fun member => ⟨_, mem_callsFirst_iff.mpr member, rfl⟩

theorem entryBetween_eq {block : Block} (listed : block ∈ graph.blockList) {target : Address}
    (present : target ∈ graph.blocks.addresses) :
    graph.entryBetween block.address target =
      if graph.blocks.rank target ∈ graph.normalRanks block then 1
      else if graph.blocks.rank target ∈ graph.callRanks block then 2
      else 0 := by
  have normal := rank_mem_iff laid inside listed present .normal
  have call := rank_mem_iff laid inside listed present .functionCall
  rw [typedRanks_eq, List.mem_append, List.mem_map, List.mem_map] at normal call
  simp only [Prod.mk.injEq, reduceCtorEq, and_false, exists_false, false_or, or_false, and_true,
    exists_eq_right] at normal call
  simp only [entryBetween, normal, call]

/-- The dense matrix of a graph whose edges all lead to blocks can be read off its edges. -/
theorem rankedMatrix_dense : graph.rankedMatrix false = .dense graph.entryTable := by
  have codes : (graph.rankedEntries.map fun entry => entry.2.code) =
      (graph.rankedEntries.map fun entry => (entry.1, entry.2.code)).map Prod.snd := by
    rw [List.map_map]
    rfl
  have places : graph.rankedEntries.map Prod.fst =
      (graph.rankedEntries.map fun entry => (entry.1, entry.2.code)).map Prod.fst := by
    rw [List.map_map]
    rfl
  rw [rankedMatrix, codes, places, Matrix.ofCoordinates_dense, blockCount,
    ← AddressMap.length_addresses]
  refine congrArg Matrix.dense (Matrix.square_eq_map ?_)
  intro row column source target sourceThere targetThere
  have blockThere := sourceThere
  rw [laid.addresses_blocks, List.getElem?_map, Option.map_eq_some_iff] at blockThere
  obtain ⟨block, found, rfl⟩ := blockThere
  rw [entryBetween_eq laid inside (List.mem_of_getElem? found) (List.mem_of_getElem? targetThere),
    AddressMap.rank_eq targetThere, List.foldl_map, foldl_rankedEntries, found]
  rfl

omit laid inside

/-! ### Equal graphs -/

/-- Equal graphs have the same keys, block by block. -/
theorem map_key_eq_of_same (leftLaid : left.Laid) (rightLaid : right.Laid)
    (same : left.same right = true) :
    left.blockList.map Block.key = right.blockList.map Block.key := by
  have agrees := (sameBy_iff_agrees leftLaid rightLaid).mp same
  have keys : (left.blocks.map fun _ block => block.key) =
      right.blocks.map fun _ block => block.key := by
    refine Std.ExtTreeMap.ext_getElem? fun address => ?_
    have firsts := congrArg (Option.map Prod.fst) (matchesAt_iff.mp (agrees.blocks address))
    rw [Option.map_map, Option.map_map] at firsts
    rw [Std.ExtTreeMap.getElem?_map, Std.ExtTreeMap.getElem?_map]
    exact firsts
  rw [blockList, blockList, ← AddressMap.contents_map, keys, AddressMap.contents_map]

theorem addresses_eq_of_same (leftLaid : left.Laid) (rightLaid : right.Laid)
    (same : left.same right = true) : left.blocks.addresses = right.blocks.addresses := by
  have keys := congrArg (List.map Block.Key.address) (map_key_eq_of_same leftLaid rightLaid same)
  rw [List.map_map, List.map_map] at keys
  rw [leftLaid.addresses_blocks, rightLaid.addresses_blocks]
  exact keys

theorem mem_edges_iff_mem_key {edge : Edge} :
    edge ∈ graph.edges ↔ ∃ key ∈ graph.blockList.map Block.key, edge ∈ key.edgesOut := by
  simp only [mem_edges, List.mem_map, exists_exists_and_eq_and, Block.key, Edge.sort,
    List.mem_mergeSort]

theorem mem_edges_iff_of_same (leftLaid : left.Laid) (rightLaid : right.Laid)
    (same : left.same right = true) {edge : Edge} : edge ∈ left.edges ↔ edge ∈ right.edges := by
  rw [mem_edges_iff_mem_key, map_key_eq_of_same leftLaid rightLaid same, ← mem_edges_iff_mem_key]

/-- Equal graphs have the same values between blocks. -/
theorem entryTable_eq_of_same (leftLaid : left.Laid) (rightLaid : right.Laid)
    (same : left.same right = true) : left.entryTable = right.entryTable := by
  have values : left.entryBetween = right.entryBetween := by
    funext source target
    simp only [entryBetween, mem_edges_iff_of_same leftLaid rightLaid same]
  rw [entryTable, entryTable, addresses_eq_of_same leftLaid rightLaid same, values]

end Graph

/-! ### Compact graphs -/

namespace Compact

/-- A compact graph that keeps the edges of a graph has its matrix. -/
theorem KeepsEdgesOf.adjacency_eq {compact : Compact} {graph : Graph}
    (keeps : compact.KeepsEdgesOf graph) {backend : String}
    (accepted : Matrix.checkBackend backend = .ok ()) (sparse : Bool) :
    compact.adjacency backend sparse = .ok (graph.rankedMatrix sparse) := by
  have listed : compact.entries = .ok graph.rankedEntries := by
    unfold entries
    refine Outcome.bind_eq_ok_iff.mpr ⟨graph.blockList.zipIdx.map fun (block, number) =>
      (graph.typedRanks block).map fun target => ((number, target.1), target.2),
      Outcome.mapM_eq_ok_iff.mpr (List.forall₂_iff_get.mpr ⟨?_, fun number _ inside => ?_⟩), rfl⟩
    · rw [List.length_range, List.length_map, List.length_zipIdx, keeps.blocks]
      exact (AddressMap.length_contents _).symm
    · rw [List.length_map, List.length_zipIdx] at inside
      have told := keeps.decoded (List.getElem?_eq_getElem inside)
      simp only [List.get_eq_getElem, List.getElem_range, List.getElem_map, List.getElem_zipIdx,
        Nat.zero_add, told]
      rfl
  rw [adjacency, accepted, listed, Graph.rankedMatrix, Graph.blockCount, keeps.blocks]
  rfl

/-! ### All graphs -/

/-- A graph without dangling edges and all compact graphs that are built from it have the same
matrices under every name of the array library. The dense one holds the values between blocks,
and equal graphs have it as well. -/
theorem adjacency_agrees {graph : Graph} (reachable : graph.Reachable)
    (closed : graph.danglingEdges = []) {backend : String}
    (accepted : Matrix.checkBackend backend = .ok ()) :
    (∀ sparse, ∃ matrix, graph.adjacency backend sparse = .ok matrix ∧
      ∀ (pool after : Pool) (normalizer : Option Normalizer) (store : Option TokenStore)
        (options : CompactOptions) (compact : Compact),
        ofGraph pool graph normalizer store options = (.ok compact, after) →
          compact.WordSized → compact.adjacency backend sparse = .ok matrix) ∧
      graph.adjacency backend false = .ok (.dense graph.entryTable) ∧
      ∀ other : Graph, other.Reachable → graph.same other = true →
        other.adjacency backend false = .ok (.dense graph.entryTable) := by
  have laid := reachable.sound.toLaid
  have inside (edge : Edge) (member : edge ∈ graph.edges) :
      edge.target ∈ graph.blocks.addresses := by
    obtain ⟨block, listed, leaving⟩ := Graph.mem_edges.mp member
    exact Graph.target_mem_addresses closed listed leaving
  refine ⟨fun sparse => ⟨_, Graph.adjacency_eq_rankedMatrix inside accepted sparse, ?_⟩, ?_,
    fun other otherReachable same => ?_⟩
  · intro pool after normalizer store options compact built sized
    exact (adjacency_lossless reachable built sized).adjacency_eq accepted sparse
  · rw [Graph.adjacency_eq_rankedMatrix inside accepted, Graph.rankedMatrix_dense laid inside]
  · have otherLaid := otherReachable.sound.toLaid
    have otherInside (edge : Edge) (member : edge ∈ other.edges) :
        edge.target ∈ other.blocks.addresses := by
      rw [← Graph.addresses_eq_of_same laid otherLaid same]
      exact inside edge ((Graph.mem_edges_iff_of_same laid otherLaid same).mpr member)
    rw [Graph.adjacency_eq_rankedMatrix otherInside accepted,
      Graph.rankedMatrix_dense otherLaid otherInside,
      Graph.entryTable_eq_of_same laid otherLaid same]

/-- The first block calls the third one and leads to itself and to the second one, where the third
one leads as well. -/
theorem loopColumns_adjacency :
    Matrix.checkBackend "NumPy" = .ok () ∧
      loopColumns.adjacency "NumPy" true = .ok (.sparse [0, 0, 0, 2] [2, 0, 1, 1] [2, 1, 1, 1]) ∧
      (Graph.loopGraph (some "base")).adjacency "NumPy" false =
        .ok (.dense [[1, 1, 2], [0, 0, 0], [0, 1, 0]]) := by
  have reachable := Graph.reachable_loopGraph (some "base")
  have closed : (Graph.loopGraph (some "base")).danglingEdges = [] := by decide
  have accepted : Matrix.checkBackend "NumPy" = .ok () := by decide
  have dense : (Graph.loopGraph (some "base")).entryTable =
      [[1, 1, 2], [0, 0, 0], [0, 1, 0]] := by decide
  have sparse : (Graph.loopGraph (some "base")).adjacency "NumPy" true =
      .ok (.sparse [0, 0, 0, 2] [2, 0, 1, 1] [2, 1, 1, 1]) := by decide
  obtain ⟨matrices, table, _⟩ := adjacency_agrees reachable closed accepted
  obtain ⟨matrix, plain, compacted⟩ := matrices true
  have agrees := compacted [] [] (some .base) none ⟨true, false⟩ loopColumns
    (ofGraph_loopGraph true) wordSized_loopColumns
  rw [sparse, Except.ok.injEq] at plain
  exact ⟨accepted, plain ▸ agrees, dense ▸ table⟩

end Compact

end FlowGraph
