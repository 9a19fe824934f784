/-
This file says when the search for a place finds none. The search tries one
offset for each gap, the padded start of the gap, and a library begins at its
own lowest line even before it is moved. So the search does not see the whole
of a gap: it finds a place exactly if some offset leaves room for everything
from the offset itself to the last moved line, as if the library began at zero.

Every such offset is accepted when it is asked for. A library that does begin
at zero fills this range, so for it the search is complete: if any offset is
accepted, the search finds one.
-/

import FlowGraph.Proofs.Placement

namespace FlowGraph.Graph

variable {host library : Graph} {mapping : Std.ExtTreeMap String Address}
  {least greatest offset size : Address} {cause : GraphError}

/-- The padded start of some gap is a place exactly if some offset leaves room from itself on. -/
theorem exists_candidate_iff (span : library.LineSpan least greatest) :
    (∃ gap ∈ Gap.free host, fitsGap least (greatest - least) gap
        (addUpTo gap.start insertionPadding) = true) ↔
      ∃ offset : Address, host.Clear offset.toNat (greatest.toNat + offset.toNat) := by
  have padding : insertionPadding.toNat = 16 := rfl
  have within (offset : Address) : offset.toNat ≤ greatest.toNat + offset.toNat :=
    Nat.le_add_left _ _
  constructor
  · rintro ⟨gap, listed, fits⟩
    refine ⟨addUpTo gap.start insertionPadding,
      (exists_free_iff host (within _)).mp ⟨gap, listed, ?_⟩⟩
    have start := toNat_addUpTo gap.start insertionPadding
    have bounded := gap.stop.toNat_lt
    obtain ⟨front, behind⟩ := (fitsGap_iff span.ordered).mp fits
    -- a gap without room behind its padded start would end beyond the address space
    exact ⟨by omega, behind⟩
  · rintro ⟨offset, clear⟩
    obtain ⟨gap, listed, front, behind⟩ := (exists_free_iff host (within offset)).mpr clear
    have start := toNat_addUpTo gap.start insertionPadding
    have bounded := offset.toNat_lt
    refine ⟨gap, listed, (fitsGap_iff span.ordered).mpr ⟨?_, ?_⟩⟩
    · omega
    · omega

/-- The search fails exactly if no offset leaves room from itself on. -/
theorem placement_none_eq_error_iff (span : library.LineSpan least greatest) :
    host.placement least (greatest - least) none = .error cause ↔
      (¬ ∃ offset : Address, host.Clear offset.toNat (greatest.toNat + offset.toNat)) ∧
        .noInsertionGap (addUpTo (greatest - least) (2 * insertionPadding)) = cause := by
  rw [← exists_candidate_iff span]
  unfold placement
  dsimp only
  split
  · rename_i gap found
    have listed := List.mem_of_find?_eq_some found
    have fits := List.find?_some found
    exact ⟨fun equal => (nomatch equal), fun both => absurd ⟨gap, listed, fits⟩ both.1⟩
  · rename_i none
    rw [List.find?_eq_none] at none
    refine ⟨fun equal => ⟨?_, Except.error.inj equal⟩, fun both => congrArg _ both.2⟩
    rintro ⟨gap, listed, fits⟩
    exact none gap listed fits

/-- The search for a place fails exactly if no offset leaves room for everything from itself to
the last moved line. Every offset that does is accepted, and for a library that begins at zero
every offset that is accepted does. -/
theorem insertLibrary_searched (host : Graph) (nonempty : library.blockList ≠ []) :
    ∃ least greatest, library.LineSpan least greatest ∧
      (∀ mapping size, host.insertLibrary library mapping none = .error (.noInsertionGap size) ↔
        (¬ ∃ offset : Address, host.Clear offset.toNat (greatest.toNat + offset.toNat)) ∧
          size = addUpTo (greatest - least) (2 * insertionPadding)) ∧
      (∀ offset : Address, host.Clear offset.toNat (greatest.toNat + offset.toNat) →
        host.placement least (greatest - least) (some offset) = .ok offset) ∧
      (least = 0 → ∀ offset,
        host.placement least (greatest - least) (some offset) = .ok offset →
          ∀ mapping size,
            host.insertLibrary library mapping none ≠ .error (.noInsertionGap size)) := by
  obtain ⟨least, greatest, found, span⟩ := exists_lineSpan nonempty
  have fails (mapping : Std.ExtTreeMap String Address) (size : Address) :
      host.insertLibrary library mapping none = .error (.noInsertionGap size) ↔
        (¬ ∃ offset : Address, host.Clear offset.toNat (greatest.toNat + offset.toNat)) ∧
          size = addUpTo (greatest - least) (2 * insertionPadding) := by
    rw [insertLibrary_eq_refusal_iff rfl found, placement_none_eq_error_iff span,
      GraphError.noInsertionGap.injEq, eq_comm (b := size)]
  refine ⟨least, greatest, span, fails, fun offset clear => ?_,
    fun begins offset accepted mapping size failed => ?_⟩
  · have ordered := span.ordered
    refine (placement_some_eq_ok_iff span).mpr ⟨?_, clear.behind, fun block listed => ?_⟩
    · have front := clear.front
      omega
    · have apart := clear.apart block listed
      unfold Gap.Apart at apart ⊢
      omega
  · have clear := (placement_some_eq_ok_iff span).mp accepted
    have zero : least.toNat = 0 := by rw [begins]; rfl
    rw [zero, Nat.zero_add] at clear
    exact ((fails mapping size).mp failed).1 ⟨offset, clear⟩

/-- The search finds a place for the loop, so some offset leaves room from itself on. -/
theorem stubGraph_finds_room :
    (loopGraph none).blockList ≠ [] ∧
      (stubGraph.insertLibrary (loopGraph none) calleeMapping none).map Prod.fst = .ok 24 ∧
      ∃ least greatest, (loopGraph none).LineSpan least greatest ∧
        ∃ offset : Address, stubGraph.Clear offset.toNat (greatest.toNat + offset.toNat) ∧
          stubGraph.placement least (greatest - least) (some offset) = .ok offset := by
  have nonempty : (loopGraph none).blockList ≠ [] := by decide
  have placed : (stubGraph.insertLibrary (loopGraph none) calleeMapping none).map Prod.fst =
      .ok 24 := by decide +kernel
  obtain ⟨least, greatest, span, fails, accepts, _⟩ := insertLibrary_searched stubGraph nonempty
  refine ⟨nonempty, placed, least, greatest, span, ?_⟩
  obtain ⟨offset, clear⟩ : ∃ offset : Address,
      stubGraph.Clear offset.toNat (greatest.toNat + offset.toNat) := by
    by_contra without
    rw [(fails calleeMapping _).mpr ⟨without, rfl⟩] at placed
    cases placed
  exact ⟨offset, clear, accepts offset clear⟩

/-! ### A library at the end of the search -/

/-- A block that stands where there is just enough room behind it. -/
def highLibrary : Graph :=
  empty.unlessFails (empty.addFunctions
    [⟨none, none, false, ∅, [{ Block.new 0xfffffff0 with lines := ["ret"] }]⟩] false)

theorem reachable_highLibrary : Reachable highLibrary :=
  (Reachable.withMetadata ∅).addFunctions false <| List.forall_mem_singleton.mpr <|
    List.forall_mem_singleton.mpr ((Block.Built.new 0xfffffff0).fill ∅ ["ret"] [] ∅)

/-- The high block may stay where it is in an empty graph, but the search would move it. -/
theorem empty_refuses_highLibrary :
    Reachable empty ∧ Reachable highLibrary ∧ highLibrary.blockList ≠ [] ∧
      (∃ next, empty.insertLibrary highLibrary ∅ (some 0) = .ok (0, next)) ∧
      empty.insertLibrary highLibrary ∅ none = .error (.noInsertionGap 32) := by
  have stays : (empty.insertLibrary highLibrary ∅ (some 0)).map Prod.fst = .ok 0 := by
    decide +kernel
  have fails : (empty.insertLibrary highLibrary ∅ none).map Prod.fst =
      .error (.noInsertionGap 32) := by decide +kernel
  obtain ⟨⟨_, next⟩, inserted, rfl⟩ := Outcome.map_eq_ok_iff.mp stays
  exact ⟨.withMetadata ∅, reachable_highLibrary, by decide, ⟨next, inserted⟩,
    Outcome.map_eq_error_iff.mp fails⟩

end FlowGraph.Graph
