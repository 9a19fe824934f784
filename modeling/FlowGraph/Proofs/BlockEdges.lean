/-
This file proves what the edge lists of a block hold. An edge list has set
semantics in the order of discovery, so a list of edges that is added in turn
contributes exactly its new edges. A block that was put together edge by edge
lists edges of its own only: those that leave it start at it, those that enter
it end at it, and no list holds an edge twice. Sorted, an edge list is the same
in whatever order its edges were found.

The result about blocks in their own right is `Block.built_iff_listsOwnEdges`:
the blocks that can be put together are exactly those that list edges of their
own only. So a block taken out of a graph is as good as one that was put
together anew, and what is proved of batches holds for such blocks too.
-/

import FlowGraph.Block
import Mathlib.Data.List.Nodup

namespace FlowGraph

theorem Edge.shifted_injective (delta : Address) :
    Function.Injective fun edge : Edge => edge.shifted delta := by
  rintro ⟨source, target, kind⟩ ⟨otherSource, otherTarget, otherKind⟩ equal
  simp only [Edge.shifted, Edge.mk.injEq, UInt64.add_left_inj] at equal
  obtain ⟨rfl, rfl, rfl⟩ := equal
  rfl

namespace Edge

/-! ### The order of edges -/

theorem precedes_iff {left right : Edge} :
    precedes left right = true ↔ left.source.toNat < right.source.toNat ∨
      left.source.toNat = right.source.toNat ∧ (left.target.toNat < right.target.toNat ∨
        left.target.toNat = right.target.toNat ∧ left.kind.code ≤ right.kind.code) := by
  unfold precedes
  by_cases source : left.source = right.source
  · rw [if_neg (not_not.mpr source), source]
    by_cases target : left.target = right.target
    · rw [if_neg (not_not.mpr target), target, decide_eq_true_iff]
      omega
    · rw [if_pos target, decide_eq_true_iff, UInt64.lt_iff_toNat_lt]
      rw [← UInt64.toNat_inj] at target
      omega
  · rw [if_pos source, decide_eq_true_iff, UInt64.lt_iff_toNat_lt]
    rw [← UInt64.toNat_inj] at source
    omega

theorem eq_of_precedes {left right : Edge} (before : precedes left right = true)
    (after : precedes right left = true) : left = right := by
  rw [precedes_iff] at before after
  have source : left.source = right.source := UInt64.toNat_inj.mp (by omega)
  have target : left.target = right.target := UInt64.toNat_inj.mp (by omega)
  have code : left.kind.code = right.kind.code := by omega
  have kind : left.kind = right.kind := by
    rw [← Option.some.injEq, ← EdgeKind.ofCode?_code, code, EdgeKind.ofCode?_code]
  obtain ⟨_, _, _⟩ := left
  exact congr (congr (congrArg Edge.mk source) target) kind

/-- The ascending list of edges does not depend on the order in which they were found. -/
theorem sort_eq_of_perm {first second : List Edge} (same : first.Perm second) :
    sort first = sort second := by
  have transitive (one two three : Edge) (before : precedes one two = true)
      (after : precedes two three = true) : precedes one three = true := by
    rw [precedes_iff] at before after ⊢
    omega
  have total (one two : Edge) : (precedes one two || precedes two one) = true := by
    rw [Bool.or_eq_true, precedes_iff, precedes_iff]
    omega
  refine List.Perm.eq_of_pairwise (fun one two _ _ => eq_of_precedes)
    (List.pairwise_mergeSort transitive total first)
    (List.pairwise_mergeSort transitive total second) ?_
  exact (List.mergeSort_perm first _).trans (same.trans (List.mergeSort_perm second _).symm)

theorem sort_sort (edges : List Edge) : sort (sort edges) = sort edges :=
  sort_eq_of_perm (List.mergeSort_perm edges _)

end Edge

namespace Block

/-! ### Edge lists -/

theorem mem_insertEdge {edges : List Edge} {edge other : Edge} :
    other ∈ insertEdge edges edge ↔ other ∈ edges ∨ other = edge := by
  unfold insertEdge
  split
  · rename_i member
    exact ⟨Or.inl, fun either => either.elim id fun same => same ▸ member⟩
  · rw [List.mem_append, List.mem_singleton]

theorem nodup_insertEdge {edges : List Edge} (distinct : edges.Nodup) (edge : Edge) :
    (insertEdge edges edge).Nodup := by
  unfold insertEdge
  split
  · exact distinct
  · rename_i absent
    rw [← List.concat_eq_append]
    exact distinct.concat absent

theorem mem_foldl_insertEdge {edges more : List Edge} {edge : Edge} :
    edge ∈ more.foldl insertEdge edges ↔ edge ∈ edges ∨ edge ∈ more := by
  induction more generalizing edges with
  | nil => simp
  | cons next rest inductionHypothesis =>
    rw [List.foldl_cons, inductionHypothesis, mem_insertEdge, List.mem_cons, or_assoc]

theorem nodup_foldl_insertEdge {edges : List Edge} (distinct : edges.Nodup) (more : List Edge) :
    (more.foldl insertEdge edges).Nodup := by
  induction more generalizing edges with
  | nil => exact distinct
  | cons next rest inductionHypothesis =>
    rw [List.foldl_cons]
    exact inductionHypothesis (nodup_insertEdge distinct next)

/-- The edges that were listed stay in front. -/
theorem prefix_foldl_insertEdge (edges more : List Edge) :
    edges <+: more.foldl insertEdge edges := by
  induction more generalizing edges with
  | nil => exact List.prefix_refl edges
  | cons next rest inductionHypothesis =>
    refine List.IsPrefix.trans ?_ (inductionHypothesis _)
    unfold insertEdge
    split
    · exact List.prefix_refl edges
    · exact List.prefix_append edges [next]

/-- Edges that are all listed already change nothing. -/
theorem foldl_insertEdge_of_subset {edges more : List Edge} (listed : more ⊆ edges) :
    more.foldl insertEdge edges = edges := by
  induction more with
  | nil => rfl
  | cons next rest inductionHypothesis =>
    rw [List.foldl_cons, insertEdge, if_pos (listed List.mem_cons_self)]
    exact inductionHypothesis fun edge member => listed (List.mem_cons_of_mem _ member)

/-- Edges that are passed over may as well not be listed. -/
theorem filter_foldl_insertEdge {edges more : List Edge} {keep : Edge → Bool}
    (passed : ∀ edge ∈ more, keep edge = false) :
    (more.foldl insertEdge edges).filter keep = edges.filter keep := by
  induction more generalizing edges with
  | nil => rfl
  | cons next rest inductionHypothesis =>
    rw [List.forall_mem_cons] at passed
    rw [List.foldl_cons, inductionHypothesis passed.2, insertEdge]
    split
    · rfl
    · rw [List.filter_append, List.filter_singleton, passed.1, cond_false, List.append_nil]

/-- Edges that are all new stand behind the others in their own order. -/
theorem foldl_insertEdge_of_nodup {edges more : List Edge} (distinct : (edges ++ more).Nodup) :
    more.foldl insertEdge edges = edges ++ more := by
  induction more generalizing edges with
  | nil => rw [List.append_nil]; rfl
  | cons next rest inductionHypothesis =>
    have absent : next ∉ edges := fun member =>
      (List.nodup_append.mp distinct).2.2 next member next List.mem_cons_self rfl
    rw [List.append_cons] at distinct ⊢
    rw [List.foldl_cons, insertEdge, if_neg absent]
    exact inductionHypothesis distinct

/-! ### Edges of its own -/

/-- Whether a block lists edges of its own only, each of them once. -/
structure ListsOwnEdges (block : Block) : Prop where
  nodupOut : block.edgesOut.Nodup
  leaves : ∀ edge ∈ block.edgesOut, edge.source = block.address
  nodupIn : block.edgesIn.Nodup
  enters : ∀ edge ∈ block.edgesIn, edge.target = block.address

theorem ListsOwnEdges.new (address : Address) : (new address).ListsOwnEdges where
  nodupOut := List.nodup_nil
  leaves _ member := (List.not_mem_nil member).elim
  nodupIn := List.nodup_nil
  enters _ member := (List.not_mem_nil member).elim

theorem ListsOwnEdges.listOut {block : Block} (own : block.ListsOwnEdges) {edge : Edge}
    (source : edge.source = block.address) : (block.listOut edge).ListsOwnEdges where
  nodupOut := nodup_insertEdge own.nodupOut edge
  leaves _ member := (mem_insertEdge.mp member).elim (own.leaves _) fun same => same ▸ source
  nodupIn := own.nodupIn
  enters := own.enters

theorem ListsOwnEdges.listIn {block : Block} (own : block.ListsOwnEdges) {edge : Edge}
    (target : edge.target = block.address) : (block.listIn edge).ListsOwnEdges where
  nodupOut := own.nodupOut
  leaves := own.leaves
  nodupIn := nodup_insertEdge own.nodupIn edge
  enters _ member := (mem_insertEdge.mp member).elim (own.enters _) fun same => same ▸ target

theorem ListsOwnEdges.addOut {block : Block} (own : block.ListsOwnEdges) (target : Address)
    (kind : EdgeKind) : (block.addOut target kind).ListsOwnEdges := own.listOut rfl

theorem ListsOwnEdges.addIn {block : Block} (own : block.ListsOwnEdges) (source : Address)
    (kind : EdgeKind) : (block.addIn source kind).ListsOwnEdges := own.listIn rfl

theorem ListsOwnEdges.shifted {block : Block} (own : block.ListsOwnEdges) (delta : Address) :
    (block.shifted delta).ListsOwnEdges where
  nodupOut := own.nodupOut.map (Edge.shifted_injective delta)
  leaves edge member := by
    obtain ⟨before, listed, rfl⟩ := List.mem_map.mp member
    exact congrArg (· + delta) (own.leaves before listed)
  nodupIn := own.nodupIn.map (Edge.shifted_injective delta)
  enters edge member := by
    obtain ⟨before, listed, rfl⟩ := List.mem_map.mp member
    exact congrArg (· + delta) (own.enters before listed)

/-! ### Putting blocks together -/

/-- Adding edges by their targets, in turn. -/
theorem foldl_addOut (targets : List (Address × EdgeKind)) (block : Block) :
    targets.foldl (fun block edge => block.addOut edge.1 edge.2) block =
      { block with
        edgesOut := (targets.map fun edge => ⟨block.address, edge.1, edge.2⟩).foldl insertEdge
          block.edgesOut } := by
  induction targets generalizing block with
  | nil => rfl
  | cons edge rest inductionHypothesis =>
    rw [List.foldl_cons, inductionHypothesis]
    rfl

/-- Adding edges by their sources, in turn. -/
theorem foldl_addIn (sources : List (Address × EdgeKind)) (block : Block) :
    sources.foldl (fun block edge => block.addIn edge.1 edge.2) block =
      { block with
        edgesIn := (sources.map fun edge => ⟨edge.1, block.address, edge.2⟩).foldl insertEdge
          block.edgesIn } := by
  induction sources generalizing block with
  | nil => rfl
  | cons edge rest inductionHypothesis =>
    rw [List.foldl_cons, inductionHypothesis]
    rfl

/-- Edges that leave the block are added by their targets. -/
theorem foldl_addOut_of_leaves {edges : List Edge} {block : Block}
    (leaves : ∀ edge ∈ edges, edge.source = block.address) :
    edges.foldl (fun block edge => block.addOut edge.target edge.kind) block =
      { block with edgesOut := edges.foldl insertEdge block.edgesOut } := by
  have own : (edges.map fun edge => (edge.target, edge.kind)).map
      (fun edge => (⟨block.address, edge.1, edge.2⟩ : Edge)) = edges := by
    rw [List.map_map]
    refine (List.map_congr_left fun edge member => ?_).trans (List.map_id _)
    rw [Function.comp_apply, ← leaves edge member]
    rfl
  have added := foldl_addOut (edges.map fun edge => (edge.target, edge.kind)) block
  rwa [own, List.foldl_map] at added

/-- Edges that enter the block are added by their sources. -/
theorem foldl_addIn_of_enters {edges : List Edge} {block : Block}
    (enters : ∀ edge ∈ edges, edge.target = block.address) :
    edges.foldl (fun block edge => block.addIn edge.source edge.kind) block =
      { block with edgesIn := edges.foldl insertEdge block.edgesIn } := by
  have own : (edges.map fun edge => (edge.source, edge.kind)).map
      (fun edge => (⟨edge.1, block.address, edge.2⟩ : Edge)) = edges := by
    rw [List.map_map]
    refine (List.map_congr_left fun edge member => ?_).trans (List.map_id _)
    rw [Function.comp_apply, ← enters edge member]
    rfl
  have added := foldl_addIn (edges.map fun edge => (edge.source, edge.kind)) block
  rwa [own, List.foldl_map] at added

/-- A block without edges lists edges of its own in the order in which they are added. -/
theorem foldl_addIn_foldl_addOut (block : Block) {edgesOut edgesIn : List Edge}
    (noneOut : block.edgesOut = []) (noneIn : block.edgesIn = [])
    (own : { block with edgesOut, edgesIn }.ListsOwnEdges) :
    edgesIn.foldl (fun block edge => block.addIn edge.source edge.kind)
      (edgesOut.foldl (fun block edge => block.addOut edge.target edge.kind) block) =
        { block with edgesOut, edgesIn } := by
  have leaves : ∀ edge ∈ edgesOut, edge.source = block.address := own.leaves
  have enters : ∀ edge ∈ edgesIn, edge.target = { block with edgesOut }.address := own.enters
  have outFresh : ([] ++ edgesOut).Nodup := own.nodupOut
  have inFresh : ([] ++ edgesIn).Nodup := own.nodupIn
  rw [foldl_addOut_of_leaves leaves, noneOut, foldl_insertEdge_of_nodup outFresh, List.nil_append,
    foldl_addIn_of_enters enters]
  dsimp only
  rw [noneIn, foldl_insertEdge_of_nodup inFresh, List.nil_append]

/-- The blocks that can be put together: an empty block, whose contents may be replaced at any
time, with edges that are added one by one. A block that a graph hands out also names the
function it belongs to. -/
inductive Built : Block → Prop
  | new (address : Address) : Built (Block.new address)
  | fill {block : Block} (labels : Std.ExtTreeSet String) (lines : List String)
      (lineAddresses : List Address) (metadata : Metadata) :
      Built block → Built { block with labels, lines, lineAddresses, metadata }
  | addOut {block : Block} (target : Address) (kind : EdgeKind) :
      Built block → Built (block.addOut target kind)
  | addIn {block : Block} (source : Address) (kind : EdgeKind) :
      Built block → Built (block.addIn source kind)
  | within {block : Block} (parent : Option Address) : Built block → Built { block with parent }

theorem Built.listsOwnEdges {block : Block} (built : block.Built) : block.ListsOwnEdges := by
  induction built with
  | new address => exact ListsOwnEdges.new address
  | fill _ _ _ _ _ own => exact ⟨own.nodupOut, own.leaves, own.nodupIn, own.enters⟩
  | addOut target kind _ own => exact own.addOut target kind
  | addIn source kind _ own => exact own.addIn source kind
  | within _ _ own => exact ⟨own.nodupOut, own.leaves, own.nodupIn, own.enters⟩

theorem Built.foldl_addOut {block : Block} (built : block.Built) (edges : List Edge) :
    (edges.foldl (fun block edge => block.addOut edge.target edge.kind) block).Built := by
  induction edges generalizing block with
  | nil => exact built
  | cons edge rest inductionHypothesis =>
    exact inductionHypothesis (built.addOut edge.target edge.kind)

theorem Built.foldl_addIn {block : Block} (built : block.Built) (edges : List Edge) :
    (edges.foldl (fun block edge => block.addIn edge.source edge.kind) block).Built := by
  induction edges generalizing block with
  | nil => exact built
  | cons edge rest inductionHypothesis =>
    exact inductionHypothesis (built.addIn edge.source edge.kind)

/-- A block that lists its own edges only is put together by adding them in their order. -/
theorem ListsOwnEdges.built {block : Block} (own : block.ListsOwnEdges) : block.Built := by
  have wired := ((Built.new block.address).foldl_addOut block.edgesOut).foldl_addIn block.edgesIn
  rw [foldl_addIn_foldl_addOut (Block.new block.address) rfl rfl
    ⟨own.nodupOut, own.leaves, own.nodupIn, own.enters⟩] at wired
  exact (wired.fill block.labels block.lines block.lineAddresses block.metadata).within block.parent

theorem built_iff_listsOwnEdges {block : Block} : block.Built ↔ block.ListsOwnEdges :=
  ⟨Built.listsOwnEdges, ListsOwnEdges.built⟩

end Block

end FlowGraph
