/-
This file proves that the column of targets can be decoded. Two flags and the
length of its part say how the targets of a block are laid out, and the
separator is a value that no rank takes, so the calls and the normal targets
come back in their order, and encoding them again gives the stored part and the
stored flags.
-/

import FlowGraph.Adjacency
import FlowGraph.Proofs.Columns
import FlowGraph.Proofs.Rows

namespace FlowGraph

/-! ### Flags -/

theorem BlockFlags.has_ofFacts (call entry external jump multi : Bool) (fact : BlockFact) :
    (ofFacts call entry external jump multi).has fact =
      match fact with
      | .call => call
      | .entry => entry
      | .external => external
      | .jump => jump
      | .multi => multi := by
  cases fact <;> revert call entry external jump multi <;> decide

/-! ### Targets by kind -/

namespace Graph

/-- The ranks of the blocks that the edges of a block lead to, calls first. -/
def typedRanks (graph : Graph) (block : Block) : List (Nat × EdgeKind) :=
  (callsFirst block).map fun edge => (graph.blocks.rank edge.target, edge.kind)

theorem typedRanks_eq (graph : Graph) (block : Block) :
    graph.typedRanks block = ((graph.callRanks block).map fun target => (target, .functionCall)) ++
      (graph.normalRanks block).map fun target => (target, .normal) := by
  rw [typedRanks, callsFirst, List.map_append, callRanks, normalRanks, List.map_map, List.map_map]
  congr 1
  · refine List.map_congr_left fun edge member => ?_
    rw [Function.comp_apply, kind_of_mem_calls member]
  · refine List.map_congr_left fun edge member => ?_
    rw [Function.comp_apply, kind_of_mem_normal member]

theorem mem_typedRanks {graph : Graph} {block : Block} {target : Nat × EdgeKind}
    (member : target ∈ graph.typedRanks block) :
    ∃ edge ∈ block.edgesOut, graph.blocks.rank edge.target = target.1 := by
  obtain ⟨edge, edgeMember, rfl⟩ := List.mem_map.mp member
  refine ⟨edge, mem_splitEdges.mpr ?_, rfl⟩
  exact (List.mem_append.mp edgeMember).symm

end Graph

namespace Compact

/-- The targets of one kind. -/
def targetsOfKind (kind : EdgeKind) (targets : List (Nat × EdgeKind)) : List Nat :=
  (targets.filter fun target => target.2 = kind).map Prod.fst

theorem targetsOfKind_typedRanks_functionCall (graph : Graph) (block : Block) :
    targetsOfKind .functionCall (graph.typedRanks block) = graph.callRanks block := by
  rw [Graph.typedRanks_eq, targetsOfKind, List.filter_append, List.filter_map, List.filter_map]
  simp [Function.comp_def]

theorem targetsOfKind_typedRanks_normal (graph : Graph) (block : Block) :
    targetsOfKind .normal (graph.typedRanks block) = graph.normalRanks block := by
  rw [Graph.typedRanks_eq, targetsOfKind, List.filter_append, List.filter_map, List.filter_map]
  simp [Function.comp_def]

/-! ### The part of one block -/

/-- Without a separator there is at most one call. -/
theorem length_calls_of_not_needsSeparator {calls normals : List Nat}
    (plain : needsSeparator calls normals = false) : calls.length ≤ 1 := by
  simp only [needsSeparator, Bool.or_eq_false_iff, decide_eq_false_iff_not] at plain
  omega

/-- The targets of a block as the column holds them. -/
theorem map_getD_encodeTargets (separator : Nat) (calls normals : List Nat) :
    ((encodeTargets calls normals).map fun target => target.getD separator) =
      calls ++ (if needsSeparator calls normals then [separator] else []) ++ normals := by
  have values (targets : List Nat) :
      (targets.map some).map (fun target => target.getD separator) = targets := by
    rw [List.map_map]
    exact List.map_id' targets
  rw [encodeTargets, List.map_append, List.map_append, values, values]
  split <;> rfl

/-- Targets are decoded as they were encoded, unless a call is the separator. -/
theorem typedTargets_encodeTargets {flags : BlockFlags} {separator : Nat}
    {calls normals : List Nat} (callFlag : flags.has .call = !calls.isEmpty)
    (multiFlag : flags.has .multi = needsSeparator calls normals)
    (free : ∀ target ∈ calls, target ≠ separator) :
    typedTargets flags separator
        ((encodeTargets calls normals).map fun target => target.getD separator) =
      (calls.map fun target => (target, .functionCall)) ++
        normals.map fun target => (target, .normal) := by
  rw [map_getD_encodeTargets]
  unfold typedTargets
  rw [callFlag, multiFlag, Bool.not_not]
  cases needed : needsSeparator calls normals with
  | true =>
    have someCall : calls.isEmpty = false := by
      refine List.isEmpty_eq_false_iff.mpr ?_
      rintro rfl
      simp [needsSeparator] at needed
    have passed (target : Nat) (member : target ∈ calls) : (target != separator) = true :=
      bne_iff_ne.mpr (free target member)
    have taken : (separator :: normals).takeWhile (fun target => target != separator) = [] := by
      simp
    have dropped : (separator :: normals).dropWhile (fun target => target != separator) =
        separator :: normals := by simp
    simp only [someCall, Bool.false_eq_true, Bool.not_true, if_false, if_true, List.append_assoc,
      List.singleton_append]
    rw [List.takeWhile_append_of_pos passed, List.dropWhile_append_of_pos passed, taken, dropped,
      List.append_nil, List.drop_one, List.tail_cons]
  | false =>
    match calls, length_calls_of_not_needsSeparator needed with
    | [], _ => simp
    | [called], _ => simp

end Compact

end FlowGraph
