/-
This file says in closed form what wiring does. Connecting edges in turn adds
to a block exactly those of them whose two ends are in the graph and that leave
or enter the block, each list in the order of the edges. Nothing else of the
graph changes, so whether both ends of an edge are in the graph does not depend
on how far the wiring has come.
-/

import FlowGraph.Graph
import FlowGraph.Proofs.BlockEdges
import FlowGraph.Proofs.Table

namespace FlowGraph.Graph

/-! ### Edges within a graph -/

theorem spans_iff (graph : Graph) (edge : Edge) :
    graph.spans edge = true ↔
      (∃ source, graph.blocks[edge.source]? = some source) ∧
        ∃ target, graph.blocks[edge.target]? = some target := by
  rw [spans, Bool.and_eq_true, AddressMap.contains_iff, AddressMap.contains_iff]

theorem mem_listedEdges (graph : Graph) (edge : Edge) :
    edge ∈ graph.listedEdges ↔ ∃ (address : Address) (block : Block),
      graph.blocks[address]? = some block ∧ (edge ∈ block.edgesOut ∨ edge ∈ block.edgesIn) := by
  simp only [listedEdges, blockList, List.mem_flatMap, AddressMap.mem_contents, List.mem_append]
  constructor
  · rintro ⟨block, ⟨address, found⟩, listed⟩
    exact ⟨address, block, found, listed⟩
  · rintro ⟨address, block, found, listed⟩
    exact ⟨block, ⟨address, found⟩, listed⟩

/-! ### Connecting edges -/

/-- The block at an address after edges were connected in turn. -/
def connected (graph : Graph) (edges : List Edge) (address : Address) (block : Block) : Block :=
  { block with
    edgesOut := (edges.filter fun edge => graph.spans edge && edge.source == address).foldl
      Block.insertEdge block.edgesOut
    edgesIn := (edges.filter fun edge => graph.spans edge && edge.target == address).foldl
      Block.insertEdge block.edgesIn }

theorem getElem?_connect (graph : Graph) (edge : Edge) (address : Address) :
    (graph.connect edge).blocks[address]? =
      graph.blocks[address]?.map (graph.connected [edge] address) := by
  unfold connect connected
  by_cases spans : graph.spans edge = true
  · rw [if_pos spans, AddressMap.getElem?_modify, AddressMap.getElem?_modify]
    by_cases source : edge.source = address <;> by_cases target : edge.target = address <;>
      cases graph.blocks[address]? <;> simp [spans, source, target, Block.listOut, Block.listIn]
  · rw [if_neg spans]
    cases graph.blocks[address]? <;> simp [spans]

theorem spans_connect (graph : Graph) (edge other : Edge) :
    (graph.connect edge).spans other = graph.spans other := by
  unfold connect spans
  split
  · simp only [Std.ExtTreeMap.contains_modify]
  · rfl

theorem connect_eq (graph : Graph) (edge : Edge) :
    graph.connect edge = { graph with blocks := (graph.connect edge).blocks } := by
  unfold connect
  split <;> rfl

theorem connected_cons (graph : Graph) (edge : Edge) (edges : List Edge) (address : Address)
    (block : Block) :
    graph.connected (edge :: edges) address block =
      graph.connected edges address (graph.connected [edge] address block) := by
  simp only [connected, List.filter_cons, List.filter_nil]
  split <;> split <;> rfl

/-- Edges that are connected in turn only change edge lists, and in a way that is known from the
graph before. -/
theorem getElem?_foldl_connect (graph : Graph) (edges : List Edge) (address : Address) :
    (edges.foldl connect graph).blocks[address]? =
      graph.blocks[address]?.map (graph.connected edges address) := by
  induction edges generalizing graph with
  | nil =>
    have nothing : graph.connected [] address = id := rfl
    rw [List.foldl_nil, nothing, Option.map_id_fun, id]
  | cons edge rest inductionHypothesis =>
    have same : (graph.connect edge).connected rest address = graph.connected rest address := by
      funext block
      simp only [connected, spans_connect]
    rw [List.foldl_cons, inductionHypothesis, getElem?_connect, Option.map_map, same]
    congr 1
    funext block
    exact (connected_cons graph edge rest address block).symm

theorem foldl_connect_eq (graph : Graph) (edges : List Edge) :
    edges.foldl connect graph = { graph with blocks := (edges.foldl connect graph).blocks } := by
  induction edges generalizing graph with
  | nil => rfl
  | cons edge rest inductionHypothesis =>
    rw [List.foldl_cons, inductionHypothesis, connect_eq]

theorem spans_foldl_connect (graph : Graph) (edges : List Edge) (other : Edge) :
    (edges.foldl connect graph).spans other = graph.spans other := by
  induction edges generalizing graph with
  | nil => rfl
  | cons edge rest inductionHypothesis =>
    rw [List.foldl_cons, inductionHypothesis, spans_connect]

theorem mem_edgesOut_connected {graph : Graph} {edges : List Edge} {address : Address}
    {block : Block} {edge : Edge} :
    edge ∈ (graph.connected edges address block).edgesOut ↔ edge ∈ block.edgesOut ∨
      (edge ∈ edges ∧ graph.spans edge = true ∧ edge.source = address) := by
  simp only [connected, Block.mem_foldl_insertEdge, List.mem_filter, Bool.and_eq_true, beq_iff_eq]

theorem mem_edgesIn_connected {graph : Graph} {edges : List Edge} {address : Address}
    {block : Block} {edge : Edge} :
    edge ∈ (graph.connected edges address block).edgesIn ↔ edge ∈ block.edgesIn ∨
      (edge ∈ edges ∧ graph.spans edge = true ∧ edge.target = address) := by
  simp only [connected, Block.mem_foldl_insertEdge, List.mem_filter, Bool.and_eq_true, beq_iff_eq]

/-- Connected edges are a block's own if those before were. -/
theorem listsOwnEdges_connected {graph : Graph} {edges : List Edge} {block : Block}
    (own : block.ListsOwnEdges) : (graph.connected edges block.address block).ListsOwnEdges where
  nodupOut := Block.nodup_foldl_insertEdge own.nodupOut _
  leaves edge member :=
    (mem_edgesOut_connected.mp member).elim (own.leaves edge) fun added => added.2.2
  nodupIn := Block.nodup_foldl_insertEdge own.nodupIn _
  enters edge member :=
    (mem_edgesIn_connected.mp member).elim (own.enters edge) fun added => added.2.2

end FlowGraph.Graph
