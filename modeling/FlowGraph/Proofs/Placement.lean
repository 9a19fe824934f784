/-
This file says where a library comes to lie. An offset is refused exactly if
the moved lines would come too close to zero, to the end of the search or to
lines of the host; no other step of an insertion refuses it for that reason.
An offset that was found, or was asked for and not refused, keeps the distance,
so the addresses of the moved lines do not wrap around, and afterwards lines of
the host and lines of the library are apart from each other.
-/

import FlowGraph.Proofs.Gaps
import FlowGraph.Proofs.Merged

namespace FlowGraph

/-! ### Moved lines -/

theorem Block.instructions_shiftedWithin (block : Block) (delta : Address) :
    (block.shiftedWithin delta).instructions = block.instructions.map (· + delta) := by
  cases lines : block.lineAddresses <;>
    simp [instructions, hasLineAddresses, shiftedWithin, shifted, lines]

/-- The lines of a block do not depend on edges. -/
theorem Block.lines_of_withoutEdges_eq {first second : Block}
    (same : first.withoutEdges = second.withoutEdges) :
    first.address = second.address ∧ first.instructions = second.instructions ∧
      first.extent = second.extent := by
  have address := congrArg Block.address same
  have instructions := congrArg Block.instructions same
  have extent := congrArg Block.extent same
  exact ⟨address, instructions, extent⟩

/-- Whether no instruction of a block lies within sixteen bytes of the lines of another one. -/
def Block.ClearOf (block other : Block) : Prop :=
  ∀ address ∈ block.instructions, Gap.Apart address.toNat address.toNat other.extent

/-- A block within a range is clear of another one that the range keeps its distance from, and
the other way round. -/
theorem Block.clearOf_of_apart {block other : Block} {low high : Nat}
    (within : ∀ address ∈ block.instructions, low ≤ address.toNat ∧ address.toNat ≤ high)
    (apart : Gap.Apart low high other.extent) : block.ClearOf other ∧ other.ClearOf block := by
  obtain ⟨lowest, highest, _⟩ := block.extent_spec
  have first := within _ lowest
  have last := within _ highest
  unfold ClearOf
  refine ⟨fun address member => ?_, fun address member => ?_⟩
  · have inside := within address member
    unfold Gap.Apart at apart ⊢
    omega
  · have inside := other.extent_spec.2.2 address member
    unfold Gap.Apart at apart ⊢
    omega

namespace Graph

variable {graph host library next : Graph} {mapping : Std.ExtTreeMap String Address}
  {requested : Option Address} {least greatest offset reported size : Address}
  {cause : GraphError}

/-! ### The lines of a library -/

/-- Whether these are the lowest and the highest address of lines. -/
structure LineSpan (graph : Graph) (least greatest : Address) : Prop where
  lowest : ∃ block ∈ graph.blockList, block.extent.1 = least
  highest : ∃ block ∈ graph.blockList, block.extent.2 = greatest
  within : ∀ block ∈ graph.blockList,
    least.toNat ≤ block.extent.1.toNat ∧ block.extent.2.toNat ≤ greatest.toNat

/-- A range made wide enough for a block. -/
def widened : Option (Address × Address) → Block → Option (Address × Address)
  | none, block => some block.extent
  | some (least, greatest), block => some (min least block.extent.1, max greatest block.extent.2)

theorem lineSpan?_eq_foldl (graph : Graph) :
    graph.lineSpan? = graph.blockList.foldl widened none := by
  unfold lineSpan?
  congr 1
  funext span block
  cases span <;> rfl

theorem foldl_widened (blocks : List Block) (low high : Address) :
    blocks.foldl widened (some (low, high)) =
      some ((blocks.map fun block => block.extent.1).foldl min low,
        (blocks.map fun block => block.extent.2).foldl max high) := by
  induction blocks generalizing low high with
  | nil => rfl
  | cons block rest inductionHypothesis =>
    rw [List.foldl_cons, widened, inductionHypothesis]
    rfl

/-- A graph with blocks has lowest and highest addresses of lines. -/
theorem exists_lineSpan (nonempty : graph.blockList ≠ []) :
    ∃ least greatest, graph.lineSpan? = some (least, greatest) ∧ graph.LineSpan least greatest := by
  obtain ⟨block, rest, blocks⟩ := List.exists_cons_of_ne_nil nonempty
  have lows : (graph.blockList.map fun block => block.extent.1).min? =
      some ((rest.map fun block => block.extent.1).foldl min block.extent.1) := by
    rw [blocks, List.map_cons, List.min?_cons']
  have highs : (graph.blockList.map fun block => block.extent.2).max? =
      some ((rest.map fun block => block.extent.2).foldl max block.extent.2) := by
    rw [blocks, List.map_cons, List.max?_cons']
  obtain ⟨lowest, below⟩ := List.min?_eq_some_iff.mp lows
  obtain ⟨highest, above⟩ := List.max?_eq_some_iff.mp highs
  have span : graph.lineSpan? =
      some ((rest.map fun block => block.extent.1).foldl min block.extent.1,
        (rest.map fun block => block.extent.2).foldl max block.extent.2) := by
    rw [lineSpan?_eq_foldl, blocks, List.foldl_cons, widened, foldl_widened]
  refine ⟨_, _, span, List.mem_map.mp lowest, List.mem_map.mp highest, fun other listed => ⟨?_, ?_⟩⟩
  · exact UInt64.le_iff_toNat_le.mp (below _ (List.mem_map_of_mem listed))
  · exact UInt64.le_iff_toNat_le.mp (above _ (List.mem_map_of_mem listed))

theorem LineSpan.ordered (span : graph.LineSpan least greatest) : least.toNat ≤ greatest.toNat := by
  obtain ⟨block, listed, rfl⟩ := span.lowest
  exact Nat.le_trans block.extent_ordered (span.within block listed).2

/-! ### What an offset is refused for -/

theorem fits_iff (span : library.LineSpan least greatest) :
    (∃ gap ∈ Gap.free host, fitsGap least (greatest - least) gap offset = true) ↔
      host.Clear (least.toNat + offset.toNat) (greatest.toNat + offset.toNat) := by
  rw [← exists_free_iff host (Nat.add_le_add_right span.ordered _)]
  simp only [fitsGap_iff span.ordered]

theorem placement_some_eq_error_iff (span : library.LineSpan least greatest) :
    host.placement least (greatest - least) (some offset) = .error cause ↔
      ¬ host.Clear (least.toNat + offset.toNat) (greatest.toNat + offset.toNat) ∧
        .invalidInsertionAddress offset
          (addUpTo (greatest - least) (2 * insertionPadding)) = cause := by
  rw [← fits_iff span, ← List.any_eq_true]
  unfold placement
  dsimp only
  split
  · rename_i fits
    exact ⟨fun equal => (nomatch equal), fun both => absurd fits both.1⟩
  · rename_i tight
    exact ⟨fun equal => ⟨tight, Except.error.inj equal⟩, fun both => congrArg _ both.2⟩

/-- A requested offset is accepted exactly if the moved lines are clear of the host. -/
theorem placement_some_eq_ok_iff (span : library.LineSpan least greatest) :
    host.placement least (greatest - least) (some offset) = .ok offset ↔
      host.Clear (least.toNat + offset.toNat) (greatest.toNat + offset.toNat) := by
  rw [← fits_iff span, ← List.any_eq_true]
  unfold placement
  dsimp only
  split
  · rename_i fits
    exact ⟨fun _ => fits, fun _ => rfl⟩
  · rename_i tight
    exact ⟨fun equal => (nomatch equal), fun fits => absurd fits tight⟩

/-- A placement that is found is clear of the host, whether it was requested or not. -/
theorem clear_of_placement (span : library.LineSpan least greatest)
    (placed : host.placement least (greatest - least) requested = .ok offset) :
    host.Clear (least.toNat + offset.toNat) (greatest.toNat + offset.toNat) := by
  rw [← fits_iff span]
  unfold placement at placed
  dsimp only at placed
  split at placed
  · split at placed
    · rename_i fits
      cases placed
      exact List.any_eq_true.mp fits
    · cases placed
  · split at placed
    · rename_i found
      cases placed
      have fits := List.find?_some found
      exact ⟨_, List.mem_of_find?_eq_some found, fits⟩
    · cases placed

/-! ### What other steps fail for -/

/-- Whether a failure says that there is no place for a library. -/
def RefusesPlace : GraphError → Bool
  | .noInsertionGap _ | .invalidInsertionAddress .. => true
  | _ => false

theorem stubEdges_ne_refusal (refusal : RefusesPlace cause = true) :
    host.stubEdges library mapping offset ≠ .error cause := by
  intro fails
  obtain ⟨function, _, here⟩ :=
    Outcome.exists_of_mapM_eq_error (Outcome.map_eq_error_iff.mp fails)
  unfold stubEdge? at here
  split at here
  · cases here
  · rcases Outcome.bind_eq_error_iff.mp here with missing | ⟨called, _, continued⟩
    · unfold Graph.function at missing
      split at missing <;> cases missing
      cases refusal
    · rcases Outcome.bind_eq_error_iff.mp continued with missing | ⟨entry, _, last⟩
      · unfold entryBlock at missing
        split at missing
        · split at missing <;> cases missing
          cases refusal
        · cases missing
          cases refusal
      · split at last <;> cases last
        cases refusal

theorem collision_ne_refusal (refusal : RefusesPlace cause = true) {override : Bool}
    {address : Address} {plain : Address → GraphError}
    (usual : RefusesPlace (plain address) = false) : collision override address plain ≠ cause := by
  rintro rfl
  unfold collision at refusal
  split at refusal
  · cases refusal
  · rw [usual] at refusal
    cases refusal

theorem checkBlock_ne_refusal (refusal : RefusesPlace cause = true) {override : Bool}
    {taken : Std.ExtTreeSet Address} {block : Block} :
    graph.checkBlock override taken block ≠ .error cause := by
  unfold checkBlock
  split
  · rw [ne_eq, Except.error.injEq]
    rintro rfl
    cases refusal
  · split
    · rw [ne_eq, Except.error.injEq]
      exact collision_ne_refusal refusal rfl
    · exact fun equal => nomatch equal

theorem checkDraft_ne_refusal (refusal : RefusesPlace cause = true) {override : Bool}
    {taken : Taken} {draft : FunctionDraft} :
    graph.checkDraft override taken draft ≠ .error cause := by
  unfold checkDraft
  split
  · rw [ne_eq, Except.error.injEq]
    rintro rfl
    cases refusal
  · split
    · rw [ne_eq, Except.error.injEq]
      exact collision_ne_refusal refusal rfl
    · intro fails
      obtain ⟨block, _, _, here⟩ :=
        Outcome.exists_of_foldlM_eq_error (Outcome.map_eq_error_iff.mp fails)
      exact checkBlock_ne_refusal refusal here

theorem checkBatch_ne_refusal (refusal : RefusesPlace cause = true) {override : Bool}
    {taken : Taken} {drafts : List FunctionDraft} :
    graph.checkBatch override taken drafts ≠ .error cause := by
  induction drafts generalizing taken with
  | nil => exact fun equal => nomatch equal
  | cons draft rest inductionHypothesis =>
    intro fails
    rw [checkBatch] at fails
    rcases Outcome.bind_eq_error_iff.mp fails with here | ⟨_, _, continued⟩
    · exact checkDraft_ne_refusal refusal here
    · rcases Outcome.bind_eq_error_iff.mp continued with later | ⟨_, _, equal⟩
      · exact inductionHypothesis later
      · cases equal

theorem addFunctions_ne_refusal (refusal : RefusesPlace cause = true) {override : Bool}
    {drafts : List FunctionDraft} : graph.addFunctions drafts override ≠ .error cause := by
  intro fails
  rcases Outcome.bind_eq_error_iff.mp fails with here | ⟨_, _, equal⟩
  · exact checkBatch_ne_refusal refusal here
  · cases equal

theorem addEdge_ne_refusal (refusal : RefusesPlace cause = true) {edge : Edge} :
    graph.addEdge edge ≠ .error cause := by
  unfold addEdge
  split
  · rw [ne_eq, Except.error.injEq]
    rintro rfl
    cases refusal
  · split
    · rw [ne_eq, Except.error.injEq]
      rintro rfl
      cases refusal
    · exact fun equal => nomatch equal

/-- An insertion says that there is no place exactly if the placement does. -/
theorem insertLibrary_eq_refusal_iff (refusal : RefusesPlace cause = true)
    (span : library.lineSpan? = some (least, greatest)) :
    host.insertLibrary library mapping requested = .error cause ↔
      host.placement least (greatest - least) requested = .error cause := by
  unfold insertLibrary
  rw [span]
  dsimp only
  rw [Outcome.bind_eq_error_iff]
  constructor
  · rintro (refused | ⟨_, _, continued⟩)
    · exact refused
    rcases Outcome.bind_eq_error_iff.mp continued with fails | ⟨_, _, continued⟩
    · exact absurd fails (stubEdges_ne_refusal refusal)
    rcases Outcome.bind_eq_error_iff.mp continued with fails | ⟨_, _, continued⟩
    · exact absurd fails (addFunctions_ne_refusal refusal)
    rcases Outcome.bind_eq_error_iff.mp continued with fails | ⟨_, _, equal⟩
    · obtain ⟨edge, _, _, here⟩ := Outcome.exists_of_foldlM_eq_error fails
      exact absurd here (addEdge_ne_refusal refusal)
    · cases equal
  · exact Or.inl

/-- An insertion refuses an offset exactly if the placement does. -/
theorem insertLibrary_eq_invalid_iff (span : library.lineSpan? = some (least, greatest)) :
    host.insertLibrary library mapping requested =
        .error (.invalidInsertionAddress reported size) ↔
      host.placement least (greatest - least) requested =
        .error (.invalidInsertionAddress reported size) :=
  insertLibrary_eq_refusal_iff rfl span

/-! ### Distance afterwards -/

theorem searchEnd_lt (graph : Graph) : graph.searchEnd < 2 ^ 64 := by
  unfold searchEnd
  split <;> decide

/-- The instructions of a library that was moved to a clear place lie within that place. -/
theorem instructions_within (span : library.LineSpan least greatest)
    (clear : host.Clear (least.toNat + offset.toNat) (greatest.toNat + offset.toNat)) {block : Block}
    (listed : block ∈ library.blockList) :
    ∀ address ∈ (block.shiftedWithin offset).instructions,
      least.toNat + offset.toNat ≤ address.toNat ∧
        address.toNat ≤ greatest.toNat + offset.toNat := by
  intro address member
  rw [Block.instructions_shiftedWithin] at member
  obtain ⟨before, own, rfl⟩ := List.mem_map.mp member
  have inside := block.extent_spec.2.2 before own
  have outer := span.within block listed
  have behind := clear.behind
  have bounded := host.searchEnd_lt
  rw [UInt64.toNat_add]
  omega

/-- After an insertion a block at an address of the host is one of the host, and any other one
is a moved block of the library, edges apart. -/
theorem blocks_insertLibrary (hostLaid : host.Laid) (libraryLaid : library.Laid)
    (nextLaid : next.Laid)
    (inserted : host.insertLibrary library mapping requested = .ok (offset, next)) {block : Block}
    (listed : block ∈ next.blockList) :
    (host.blocks.contains block.address = true →
      ∃ old ∈ host.blockList, old.withoutEdges = block.withoutEdges) ∧
    (host.blocks.contains block.address = false →
      ∃ old ∈ library.blockList, (old.shiftedWithin offset).withoutEdges = block.withoutEdges) := by
  have blocks := blockList_insertLibrary libraryLaid inserted
  have either := blocks.mem_iff.mp (List.mem_map_of_mem listed)
  rw [List.map_append, List.map_map, List.mem_append, List.mem_map, List.mem_map] at either
  have distinct : ((host.blockList ++ library.blockList.map fun block =>
      block.shiftedWithin offset).map Block.address).Nodup := by
    have addresses := blocks.map Block.address
    rw [List.map_map, List.map_map] at addresses
    refine addresses.nodup_iff.mp ?_
    have keys := next.blocks.nodup_addresses
    rwa [nextLaid.addresses_blocks] at keys
  rw [List.map_append, List.nodup_append] at distinct
  refine ⟨fun known => either.resolve_right ?_, fun unknown => either.resolve_left ?_⟩
  · rintro ⟨old, oldListed, same⟩
    obtain ⟨there, found⟩ := (AddressMap.contains_iff _ _).mp known
    have address := (Block.lines_of_withoutEdges_eq same).1
    refine distinct.2.2 block.address ?_ block.address ?_ rfl
    · exact hostLaid.blockKey found ▸ List.mem_map_of_mem (AddressMap.mem_contents_of_getElem? found)
    · rw [List.map_map]
      exact List.mem_map.mpr ⟨old, oldListed, address⟩
  · rintro ⟨old, oldListed, same⟩
    have address := (Block.lines_of_withoutEdges_eq same).1
    rw [AddressMap.contains_eq_false_iff, ← address, hostLaid.mem_blockList.mp oldListed] at unknown
    cases unknown

/-- Whether the blocks at addresses of the host and the others are clear of each other. -/
def KeepsDistance (host next : Graph) : Prop :=
  ∀ kept ∈ next.blockList, host.blocks.contains kept.address = true →
    ∀ added ∈ next.blockList, host.blocks.contains added.address = false →
      added.ClearOf kept ∧ kept.ClearOf added

theorem keepsDistance_of_clear (hostReachable : Reachable host)
    (libraryReachable : Reachable library) (span : library.LineSpan least greatest)
    (inserted : host.insertLibrary library mapping requested = .ok (offset, next))
    (clear : host.Clear (least.toNat + offset.toNat) (greatest.toNat + offset.toNat)) :
    host.KeepsDistance next := by
  have libraryLaid := libraryReachable.sound.toLaid
  have nextLaid := (hostReachable.sound.insertLibrary libraryReachable.sound inserted).toLaid
  intro kept keptListed known added addedListed unknown
  obtain ⟨before, beforeListed, sameBefore⟩ := (blocks_insertLibrary hostReachable.sound.toLaid
    libraryLaid nextLaid inserted keptListed).1 known
  obtain ⟨old, oldListed, sameOld⟩ := (blocks_insertLibrary hostReachable.sound.toLaid
    libraryLaid nextLaid inserted addedListed).2 unknown
  obtain ⟨_, _, extent⟩ := Block.lines_of_withoutEdges_eq sameBefore
  obtain ⟨_, instructions, _⟩ := Block.lines_of_withoutEdges_eq sameOld
  refine Block.clearOf_of_apart ?_ (extent ▸ clear.apart before beforeListed)
  rw [← instructions]
  exact instructions_within span clear oldListed

/-- An offset is refused exactly if the moved lines were not clear of the host, an offset that is
found makes them clear, and after an insertion they keep their distance. -/
theorem insertLibrary_placed (hostReachable : Reachable host) (libraryReachable : Reachable library)
    (nonempty : library.blockList ≠ []) :
    ∃ least greatest, library.LineSpan least greatest ∧
      (∀ mapping offset reported size,
        host.insertLibrary library mapping (some offset) =
            .error (.invalidInsertionAddress reported size) ↔
          ¬ host.Clear (least.toNat + offset.toNat) (greatest.toNat + offset.toNat) ∧
            reported = offset ∧ size = addUpTo (greatest - least) (2 * insertionPadding)) ∧
      (∀ offset, host.placement least (greatest - least) none = .ok offset →
        host.Clear (least.toNat + offset.toNat) (greatest.toNat + offset.toNat)) ∧
      ∀ mapping requested offset next,
        host.insertLibrary library mapping requested = .ok (offset, next) →
          host.Clear (least.toNat + offset.toNat) (greatest.toNat + offset.toNat) ∧
            host.KeepsDistance next := by
  obtain ⟨least, greatest, found, span⟩ := exists_lineSpan nonempty
  refine ⟨least, greatest, span, fun mapping offset reported size => ?_,
    fun offset => clear_of_placement span, fun mapping requested offset next inserted => ?_⟩
  · rw [insertLibrary_eq_invalid_iff found, placement_some_eq_error_iff span,
      GraphError.invalidInsertionAddress.injEq, eq_comm (a := offset), eq_comm (b := size)]
  · obtain ⟨_, _, _, _, foundHere, placed, _⟩ := insertLibrary_eq_ok_iff.mp inserted
    cases found.symm.trans foundHere
    have clear := clear_of_placement span placed
    exact ⟨clear, keepsDistance_of_clear hostReachable libraryReachable span inserted clear⟩

/-- The loop may begin sixteen bytes behind the stub, and no earlier. -/
theorem stubGraph_keeps_loop_apart :
    (loopGraph none).blockList ≠ [] ∧
      stubGraph.insertLibrary (loopGraph none) calleeMapping (some 7) =
        .error (.invalidInsertionAddress 7 48) ∧
      ∃ next, stubGraph.insertLibrary (loopGraph none) calleeMapping (some 8) = .ok (8, next) ∧
        stubGraph.KeepsDistance next ∧ ∃ least greatest, (loopGraph none).LineSpan least greatest ∧
          ¬ stubGraph.Clear (least.toNat + 7) (greatest.toNat + 7) ∧
          stubGraph.Clear (least.toNat + 8) (greatest.toNat + 8) := by
  have nonempty : (loopGraph none).blockList ≠ [] := by decide
  have refused : (stubGraph.insertLibrary (loopGraph none) calleeMapping (some 7)).map Prod.fst =
      .error (.invalidInsertionAddress 7 48) := by decide +kernel
  have accepted : (stubGraph.insertLibrary (loopGraph none) calleeMapping (some 8)).map Prod.fst =
      .ok 8 := by decide +kernel
  rw [Outcome.map_eq_error_iff] at refused
  obtain ⟨⟨offset, next⟩, inserted, rfl⟩ := Outcome.map_eq_ok_iff.mp accepted
  obtain ⟨least, greatest, span, refuses, _, places⟩ :=
    insertLibrary_placed reachable_stubGraph (reachable_loopGraph none) nonempty
  obtain ⟨clear, distance⟩ := places _ _ _ _ inserted
  exact ⟨nonempty, refused, next, inserted, distance, least, greatest, span,
    ((refuses _ _ _ _).mp refused).1, clear⟩

end Graph

end FlowGraph
