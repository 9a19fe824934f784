/-
This file says what can still go wrong with an insertion after a place was
found and the links were made. A place is clear of the lines of the host, but
functions and blocks may stand elsewhere than their lines. So a moved function
or block may meet one of the host, and nothing else may happen: the insertion
fails for the first of these collisions, and succeeds if there is none.

What lies between the first and the last line of the library does move up, and
keeps its distance from the lines of the host. Where all functions and blocks
of the library lie there, and all those of the host are close to lines, an
insertion cannot fail any more.
-/

import FlowGraph.Proofs.Placement

namespace FlowGraph.Graph

variable {graph host library : Graph} {override : Bool} {drafts : List FunctionDraft}
  {addresses : List Address} {mapping : Std.ExtTreeMap String Address}
  {requested : Option Address} {least greatest offset : Address} {links : List Edge}

/-! ### The collisions of a batch -/

/-- The collisions of blocks with those of a graph. -/
def blockCollisions (graph : Graph) (override : Bool) (blocks : List Block) : List GraphError :=
  (blocks.filter fun block => graph.blocks.contains block.address).map fun block =>
    collision override block.address .duplicateBlock

/-- The collisions of a function and its blocks. -/
def draftCollisions (graph : Graph) (override : Bool) (address : Address)
    (draft : FunctionDraft) : List GraphError :=
  (if graph.functions.contains address then [collision override address .duplicateFunction]
    else []) ++ graph.blockCollisions override draft.blocks

/-- The collisions of a batch with functions at these addresses, in its order. -/
def batchCollisions (graph : Graph) (override : Bool) (addresses : List Address)
    (drafts : List FunctionDraft) : List GraphError :=
  (addresses.zip drafts).flatMap fun entry => graph.draftCollisions override entry.1 entry.2

/-- A fresh block is checked for a collision with the graph. -/
theorem checkBlock_eq {taken : Std.ExtTreeSet Address} {block : Block}
    (matched : MatchesLines block) (fresh : block.address ∉ taken) :
    graph.checkBlock override taken block =
      Outcome.unlessAny (graph.blockCollisions override [block]) (taken.insert block.address) := by
  have fit : ¬ (block.hasLineAddresses = true ∧
      block.lineAddresses.length ≠ block.lines.length) := fun mismatch =>
    mismatch.2 (matched ((Block.hasLineAddresses_iff block).mp mismatch.1))
  have unused : ¬ taken.contains block.address = true := fun used =>
    fresh (Std.ExtTreeSet.mem_iff_contains.mpr used)
  rw [checkBlock, if_neg fit, blockCollisions, List.filter_cons, List.filter_nil]
  by_cases used : graph.blocks.contains block.address = true
  · rw [if_pos (Or.inl used), if_pos used]
    rfl
  · rw [if_neg (not_or.mpr ⟨used, unused⟩), if_neg used]
    rfl

/-- Blocks that do not collide with each other are checked for collisions with the graph. -/
theorem foldlM_checkBlock_eq {taken : Std.ExtTreeSet Address} {blocks : List Block}
    (fit : ∀ block ∈ blocks, MatchesLines block ∧ block.address ∉ taken)
    (distinct : (blocks.map Block.address).Nodup) :
    blocks.foldlM (graph.checkBlock override) taken =
      Outcome.unlessAny (graph.blockCollisions override blocks)
        (blocks.foldl (fun taken block => taken.insert block.address) taken) := by
  induction blocks generalizing taken with
  | nil => rfl
  | cons block rest inductionHypothesis =>
    rw [List.forall_mem_cons] at fit
    rw [List.map_cons, List.nodup_cons] at distinct
    have split : graph.blockCollisions override (block :: rest) =
        graph.blockCollisions override [block] ++ graph.blockCollisions override rest := by
      rw [blockCollisions, blockCollisions, blockCollisions, ← List.map_append,
        ← List.filter_append]
      rfl
    rw [List.foldlM_cons, checkBlock_eq fit.1.1 fit.1.2, split, List.foldl_cons]
    refine Outcome.unlessAny_bind_eq _ (inductionHypothesis (fun other member => ?_) distinct.2)
    rw [Std.ExtTreeSet.mem_insert, Std.compare_eq_iff_eq, not_or]
    refine ⟨(fit.2 other member).1, fun same => distinct.1 ?_, (fit.2 other member).2⟩
    exact same ▸ List.mem_map_of_mem member

/-- A function that is fresh as well as its blocks is checked for collisions with the graph. -/
theorem checkDraft_eq {taken : Taken} {draft : FunctionDraft} {address : Address}
    (resolved : draft.resolvedAddress? = some address) (fresh : address ∉ taken.functions)
    (fit : ∀ block ∈ draft.blocks, MatchesLines block ∧ block.address ∉ taken.blocks)
    (distinct : (draft.blocks.map Block.address).Nodup) :
    graph.checkDraft override taken draft =
      Outcome.unlessAny (graph.draftCollisions override address draft)
        (address, ⟨taken.functions.insert address,
          draft.blocks.foldl (fun taken block => taken.insert block.address) taken.blocks⟩) := by
  have unused : ¬ taken.functions.contains address = true := fun used =>
    fresh (Std.ExtTreeSet.mem_iff_contains.mpr used)
  rw [checkDraft, resolved, draftCollisions]
  dsimp only
  by_cases used : graph.functions.contains address = true
  · rw [if_pos (Or.inl used), if_pos used]
    rfl
  · rw [if_neg (not_or.mpr ⟨used, unused⟩), if_neg used, foldlM_checkBlock_eq fit distinct,
      Outcome.map_unlessAny]
    rfl

/-- A batch that does not collide with itself is checked for collisions with the graph. -/
theorem checkBatch_eq {taken : Taken} (consistent : empty.Admits drafts addresses)
    (functionsFresh : ∀ address ∈ addresses, address ∉ taken.functions)
    (blocksFresh : ∀ block ∈ drafts.flatMap FunctionDraft.blocks, block.address ∉ taken.blocks) :
    graph.checkBatch override taken drafts =
      Outcome.unlessAny (graph.batchCollisions override addresses drafts) addresses := by
  induction drafts generalizing taken addresses with
  | nil =>
    rw [List.map_eq_nil_iff.mp consistent.resolved.symm]
    rfl
  | cons draft rest inductionHypothesis =>
    cases addresses with
    | nil => cases consistent.resolved
    | cons address others =>
      obtain ⟨⟨resolved, _, fit, distinct⟩, restConsistent, different, blocksDifferent⟩ :=
        admits_cons_iff.mp consistent
      rw [List.forall_mem_cons] at functionsFresh
      rw [List.flatMap_cons, List.forall_mem_append] at blocksFresh
      have remaining : graph.checkBatch override ⟨taken.functions.insert address,
          draft.blocks.foldl (fun taken block => taken.insert block.address) taken.blocks⟩ rest =
            Outcome.unlessAny (graph.batchCollisions override others rest) others := by
        refine inductionHypothesis restConsistent (fun other member => ?_) fun block member => ?_
        · rw [Std.ExtTreeSet.mem_insert, Std.compare_eq_iff_eq, not_or]
          refine ⟨?_, functionsFresh.2 other member⟩
          rintro rfl
          exact different member
        · rw [mem_foldl_insert_address, not_or]
          exact ⟨blocksDifferent block member, blocksFresh.2 block member⟩
      rw [checkBatch, checkDraft_eq resolved functionsFresh.1
        (fun block member => ⟨(fit block member).1, blocksFresh.1 block member⟩) distinct]
      refine Outcome.unlessAny_bind_eq _ ?_
      dsimp only
      rw [remaining]
      exact Outcome.map_unlessAny _ _ _

/-- A batch that does not collide with itself is added unless it collides with the graph. -/
theorem addFunctions_eq (consistent : empty.Admits drafts addresses) :
    graph.addFunctions drafts override =
      Outcome.unlessAny (graph.batchCollisions override addresses drafts)
        (graph.placeAll addresses drafts).wire := by
  rw [addFunctions, checkBatch_eq consistent (fun _ _ => Std.ExtTreeSet.not_mem_empty)
    fun _ _ => Std.ExtTreeSet.not_mem_empty]
  exact Outcome.map_unlessAny _ _ _

/-! ### The collisions of a library -/

/-- The collisions of a moved library with the host: function by function, the function itself
and then its blocks. -/
def collisions (host library : Graph) (offset : Address) : List GraphError :=
  library.functionList.flatMap fun function =>
    (if host.functions.contains (function.address + offset) then
        [.duplicateFunction (function.address + offset)] else []) ++
      (function.blocks.filter fun address => host.blocks.contains (address + offset)).map
        fun address => .duplicateBlock (address + offset)

theorem shift_injective (offset : Address) :
    Function.Injective fun address : Address => address + offset :=
  fun _ _ => UInt64.add_left_inj offset |>.mp

/-- A moved library does not collide with itself, because moving keeps addresses apart. -/
theorem admits_relocated (laid : library.Laid) (offset : Address) :
    empty.Admits (library.relocated offset)
      (library.functionList.map fun function => function.address + offset) where
  resolved := by
    rw [relocated, List.map_map, List.map_map]
    rfl
  functionsFree _ _ := Std.ExtTreeMap.getElem?_empty
  functionsDistinct := by
    have distinct := library.functions.nodup_addresses
    rw [laid.addresses_functions] at distinct
    have moved := distinct.map (shift_injective offset)
    rwa [List.map_map] at moved
  blocksFree _ _ := Std.ExtTreeMap.getElem?_empty
  blocksDistinct := by
    have whole : (library.relocated offset).flatMap FunctionDraft.blocks =
        (library.functionList.flatMap library.blocksOf).map fun block => block.shifted offset := by
      rw [relocated, List.flatMap_map, List.map_flatMap]
    have distinct := library.blocks.nodup_addresses
    rw [laid.addresses_blocks] at distinct
    have moved := distinct.map (shift_injective offset)
    rw [List.map_map] at moved
    have same := laid.flatMap_blocksOf_perm.map (fun block => (block.shifted offset).address)
    rw [whole, List.map_map]
    exact same.nodup_iff.mpr moved
  matchesLines block member := by
    obtain ⟨old, listed, rfl⟩ := (laid.mem_blocks_relocated offset).mp member
    intro present
    have counts := laid.lineAddresses (laid.mem_blockList.mp listed)
      fun without => present (List.map_eq_nil_iff.mpr without)
    exact (List.length_map _).trans counts

/-- The collisions of the batch of a moved library are those of the library. -/
theorem batchCollisions_relocated (laid : library.Laid) (offset : Address) :
    host.batchCollisions false (library.functionList.map fun function => function.address + offset)
      (library.relocated offset) = host.collisions library offset := by
  rw [batchCollisions, relocated, List.zip_map', List.flatMap_map, collisions]
  refine List.flatMap_congr fun function listed => ?_
  rw [← laid.map_address_blocksOf (laid.mem_functionList.mp listed), draftCollisions,
    blockCollisions, List.filter_map, List.filter_map, List.map_map, List.map_map]
  rfl

theorem mem_collisions {cause : GraphError} :
    cause ∈ host.collisions library offset ↔ ∃ function ∈ library.functionList,
      (host.functions.contains (function.address + offset) = true ∧
        cause = .duplicateFunction (function.address + offset)) ∨
      ∃ address ∈ function.blocks, host.blocks.contains (address + offset) = true ∧
        cause = .duplicateBlock (address + offset) := by
  rw [collisions, List.mem_flatMap]
  refine exists_congr fun function => and_congr_right fun _ => ?_
  rw [List.mem_append, List.mem_map]
  refine or_congr ?_ (exists_congr fun address => ?_)
  · split
    · rename_i used
      rw [List.mem_singleton, used]
      exact ⟨fun same => ⟨rfl, same⟩, And.right⟩
    · rename_i unused
      exact ⟨fun member => (nomatch member), fun both => absurd both.1 unused⟩
  · rw [List.mem_filter, and_assoc, eq_comm (b := cause)]

/-! ### What an insertion fails for -/

/-- Once a place was found and the links were made, an insertion succeeds unless the moved
library collides with the host. -/
theorem insertLibrary_eq (hostLaid : host.Laid) (libraryLaid : library.Laid)
    (span : library.lineSpan? = some (least, greatest))
    (placed : host.placement least (greatest - least) requested = .ok offset)
    (linked : host.stubEdges library mapping offset = .ok links) :
    ∃ next, host.insertLibrary library mapping requested =
      Outcome.unlessAny (host.collisions library offset) (offset, next) := by
  have added : host.addFunctions (library.relocated offset) false = _ :=
    addFunctions_eq (admits_relocated libraryLaid offset)
  rw [batchCollisions_relocated libraryLaid] at added
  cases collide : host.collisions library offset with
  | cons cause rest =>
    rw [collide] at added
    refine ⟨host, ?_⟩
    unfold insertLibrary
    rw [span]
    simp only [placed, linked, added, Outcome.ok_bind]
    rfl
  | nil =>
    rw [collide] at added
    exact ⟨_, insertLibrary_eq_ok_iff.mpr ⟨least, greatest, links, _, span, placed, linked, added,
      spans_of_added hostLaid libraryLaid linked added, rfl⟩⟩

/-! ### What is certain to move up -/

theorem lineSpan_of_lineSpan? (found : graph.lineSpan? = some (least, greatest)) :
    graph.LineSpan least greatest := by
  have nonempty : graph.blockList ≠ [] := by
    intro without
    rw [lineSpan?_eq_foldl, without] at found
    cases found
  obtain ⟨_, _, foundHere, span⟩ := exists_lineSpan nonempty
  cases found.symm.trans foundHere
  exact span

/-- An address between those of the lines moves up with them and keeps their distance. -/
theorem Clear.moved
    (clear : host.Clear (least.toNat + offset.toNat) (greatest.toNat + offset.toNat))
    {address : Address} (within : least ≤ address ∧ address ≤ greatest) :
    (address + offset).toNat = address.toNat + offset.toNat ∧
      ∀ block ∈ host.blockList,
        Gap.Apart (address + offset).toNat (address + offset).toNat block.extent := by
  have lower := UInt64.le_iff_toNat_le.mp within.1
  have upper := UInt64.le_iff_toNat_le.mp within.2
  have behind := clear.behind
  have bounded := host.searchEnd_lt
  have sum : (address + offset).toNat = address.toNat + offset.toNat := by
    rw [UInt64.toNat_add]
    omega
  refine ⟨sum, fun block listed => ?_⟩
  have apart := clear.apart block listed
  unfold Gap.Apart at apart ⊢
  omega

/-- The addresses of functions and of blocks. -/
def places (graph : Graph) : List Address := graph.functions.addresses ++ graph.blocks.addresses

/-- Whether an address is less than sixteen bytes away from the lines of some block. -/
def NearLines (graph : Graph) (address : Address) : Prop :=
  ∃ block ∈ graph.blockList, ¬ Gap.Apart address.toNat address.toNat block.extent

instance (graph : Graph) (address : Address) : Decidable (graph.NearLines address) :=
  inferInstanceAs (Decidable (∃ block ∈ graph.blockList, _))

/-- A place of the host that is near lines is not hit by anything between the lines of the
library. -/
theorem Clear.moved_not_mem_places
    (clear : host.Clear (least.toNat + offset.toNat) (greatest.toNat + offset.toNat))
    (near : ∀ place ∈ host.places, host.NearLines place) {address : Address}
    (within : least ≤ address ∧ address ≤ greatest) : address + offset ∉ host.places := by
  intro hit
  obtain ⟨block, listed, close⟩ := near _ hit
  exact close ((clear.moved within).2 block listed)

/-- A collision hits a place of the host by a place of the library. -/
theorem exists_place_of_mem_collisions (laid : library.Laid) {cause : GraphError}
    (member : cause ∈ host.collisions library offset) :
    ∃ address ∈ library.places, address + offset ∈ host.places := by
  obtain ⟨function, listed, ⟨used, _⟩ | ⟨address, own, used, _⟩⟩ := mem_collisions.mp member
  · refine ⟨function.address, List.mem_append_left _ ?_, List.mem_append_left _ ?_⟩
    · exact AddressMap.mem_addresses_of_getElem? (laid.mem_functionList.mp listed)
    · exact (AddressMap.mem_addresses _ _).mpr ((AddressMap.contains_iff _ _).mp used)
  · obtain ⟨block, found, _⟩ := laid.member (laid.mem_functionList.mp listed) address own
    refine ⟨address, List.mem_append_right _ (AddressMap.mem_addresses_of_getElem? found),
      List.mem_append_right _ ?_⟩
    exact (AddressMap.mem_addresses _ _).mpr ((AddressMap.contains_iff _ _).mp used)

/-! ### After a place was found -/

/-- Once a place was found and the links were made, an insertion fails for the first collision of
the moved library with the host, and succeeds if there is none. What lies between the lines of
the library moves up and keeps its distance from the lines of the host. So an insertion succeeds
where all places of the library lie between its lines and those of the host are near lines. -/
theorem insertLibrary_after_links (hostReachable : Reachable host)
    (libraryReachable : Reachable library) (span : library.lineSpan? = some (least, greatest))
    (placed : host.placement least (greatest - least) requested = .ok offset)
    (linked : host.stubEdges library mapping offset = .ok links) :
    (∀ cause, host.insertLibrary library mapping requested = .error cause ↔
        (host.collisions library offset).head? = some cause) ∧
      ((∃ next, host.insertLibrary library mapping requested = .ok (offset, next)) ↔
        host.collisions library offset = []) ∧
      (∀ address, least ≤ address ∧ address ≤ greatest →
        (address + offset).toNat = address.toNat + offset.toNat ∧
          ∀ block ∈ host.blockList,
            Gap.Apart (address + offset).toNat (address + offset).toNat block.extent) ∧
      ((∀ place ∈ library.places, least ≤ place ∧ place ≤ greatest) →
        (∀ place ∈ host.places, host.NearLines place) →
          (∃ next, host.insertLibrary library mapping requested = .ok (offset, next)) ∧
            ∀ place ∈ library.places, (place + offset).toNat = place.toNat + offset.toNat ∧
              place + offset ∉ host.places) := by
  have libraryLaid := libraryReachable.sound.toLaid
  have clear := clear_of_placement (lineSpan_of_lineSpan? span) placed
  obtain ⟨next, outcome⟩ :=
    insertLibrary_eq hostReachable.sound.toLaid libraryLaid span placed linked
  have succeeds : (∃ next, host.insertLibrary library mapping requested = .ok (offset, next)) ↔
      host.collisions library offset = [] := by
    rw [outcome]
    simp only [Outcome.unlessAny_eq_ok_iff, Prod.mk.injEq, true_and, exists_and_left,
      exists_eq', and_true]
  refine ⟨fun cause => ?_, succeeds, fun address => clear.moved, fun within near => ⟨?_, ?_⟩⟩
  · rw [outcome, Outcome.unlessAny_eq_error_iff]
  · refine succeeds.mpr (List.eq_nil_iff_forall_not_mem.mpr fun cause member => ?_)
    obtain ⟨place, listed, hit⟩ := exists_place_of_mem_collisions libraryLaid member
    exact clear.moved_not_mem_places near (within place listed) hit
  · exact fun place listed =>
      ⟨(clear.moved (within place listed)).1, clear.moved_not_mem_places near (within place listed)⟩

/-- The loop meets nothing behind the stub. -/
theorem stubGraph_leaves_loopGraph_room :
    (loopGraph none).places = [16, 32, 16, 24, 32] ∧ stubGraph.places = [8, 8] ∧
      (∃ next, stubGraph.insertLibrary (loopGraph none) calleeMapping (some 8) = .ok (8, next)) ∧
      ∀ place ∈ (loopGraph none).places, (place + 8).toNat = place.toNat + 8 ∧
        place + 8 ∉ stubGraph.places := by
  have span : (loopGraph none).lineSpan? = some (16, 32) := by decide
  have placed : stubGraph.placement 16 (32 - 16) (some 8) = .ok 8 := by decide +kernel
  have linked : stubGraph.stubEdges (loopGraph none) calleeMapping 8 =
      .ok [⟨8, 24, .normal⟩] := by decide +kernel
  have libraryPlaces : (loopGraph none).places = [16, 32, 16, 24, 32] := by decide
  have hostPlaces : stubGraph.places = [8, 8] := by decide
  have within : ∀ place ∈ (loopGraph none).places, 16 ≤ place ∧ place ≤ 32 := by
    rw [libraryPlaces, List.forall_mem_cons, List.forall_mem_cons, List.forall_mem_cons,
      List.forall_mem_cons, List.forall_mem_singleton]
    decide
  have near : ∀ place ∈ stubGraph.places, stubGraph.NearLines place := by
    rw [hostPlaces, List.forall_mem_cons, List.forall_mem_singleton]
    decide
  obtain ⟨_, _, _, roomy⟩ := insertLibrary_after_links reachable_stubGraph
    (reachable_loopGraph none) span placed linked
  exact ⟨libraryPlaces, hostPlaces, roomy within near⟩

/-! ### Places apart from lines -/

/-- A block whose line stands elsewhere than the block. -/
def strayHost : Graph :=
  empty.unlessFails (empty.addFunctions
    [⟨none, none, false, ∅, [{ Block.new 64 with lines := ["nop"], lineAddresses := [8] }]⟩] false)

/-- A block at forty. -/
def smallLibrary : Graph :=
  empty.unlessFails (empty.addFunctions
    [⟨none, none, false, ∅, [{ Block.new 40 with lines := ["ret"] }]⟩] false)

/-- A block at the end of the address space whose line stands at forty. -/
def farLibrary : Graph :=
  empty.unlessFails (empty.addFunctions
    [⟨none, none, false, ∅, [{ Block.new 0xfffffffffffffff8 with
        lines := ["ret"], lineAddresses := [40] }]⟩] false)

theorem reachable_strayHost : Reachable strayHost :=
  (Reachable.withMetadata ∅).addFunctions false <| List.forall_mem_singleton.mpr <|
    List.forall_mem_singleton.mpr ((Block.Built.new 64).fill ∅ ["nop"] [8] ∅)

theorem reachable_smallLibrary : Reachable smallLibrary :=
  (Reachable.withMetadata ∅).addFunctions false <| List.forall_mem_singleton.mpr <|
    List.forall_mem_singleton.mpr ((Block.Built.new 40).fill ∅ ["ret"] [] ∅)

theorem reachable_farLibrary : Reachable farLibrary :=
  (Reachable.withMetadata ∅).addFunctions false <| List.forall_mem_singleton.mpr <|
    List.forall_mem_singleton.mpr ((Block.Built.new 0xfffffffffffffff8).fill ∅ ["ret"] [40] ∅)

/-- A place that was found does not keep the small block from meeting the stray one, nor the far
block from moving around the end of the address space. -/
theorem strayHost_meets_smallLibrary :
    (Reachable strayHost ∧ Reachable smallLibrary ∧
      smallLibrary.lineSpan? = some (40, 40) ∧
      strayHost.placement 40 (40 - 40) (some 24) = .ok 24 ∧
      strayHost.stubEdges smallLibrary ∅ 24 = .ok [] ∧
      strayHost.insertLibrary smallLibrary ∅ (some 24) = .error (.duplicateFunction 64)) ∧
    (Reachable farLibrary ∧ farLibrary.lineSpan? = some (40, 40) ∧
      empty.placement 40 (40 - 40) (some 24) = .ok 24 ∧
      empty.stubEdges farLibrary ∅ 24 = .ok [] ∧
      ∃ next, empty.insertLibrary farLibrary ∅ (some 24) = .ok (24, next) ∧
        farLibrary.blocks.addresses = [0xfffffffffffffff8] ∧ next.blocks.addresses = [16]) := by
  have meets : (strayHost.insertLibrary smallLibrary ∅ (some 24)).map Prod.fst =
      .error (.duplicateFunction 64) := by decide +kernel
  have wraps : (empty.insertLibrary farLibrary ∅ (some 24)).map
      (fun result => (result.1, result.2.blocks.addresses)) = .ok (24, [16]) := by decide +kernel
  obtain ⟨⟨offset, next⟩, inserted, same⟩ := Outcome.map_eq_ok_iff.mp wraps
  obtain ⟨rfl, addresses⟩ : offset = 24 ∧ next.blocks.addresses = [16] := by
    simpa only [Prod.mk.injEq] using same
  exact ⟨⟨reachable_strayHost, reachable_smallLibrary, by decide, by decide +kernel,
    by decide +kernel, Outcome.map_eq_error_iff.mp meets⟩, reachable_farLibrary, by decide,
    by decide +kernel, by decide +kernel, next, inserted, by decide, addresses⟩

end FlowGraph.Graph
