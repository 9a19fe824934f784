/-
This file says what equality of drafts and of graphs comes to. Blocks are matched with each other
in any order, and a match is one of equal blocks that have the same hash. The hash is taken of the
metadata as text, which shows the signs of zeros, and equality overlooks them. So two blocks may be
equal and not match; short of negative zeros they match exactly if they are equal.

In a sound graph each address has one block, so the blocks of equal graphs match address by
address. Hence neither the order of the blocks of a function nor that of the edges of a block
matters.
-/

import FlowGraph.Proofs.BlockCounts
import FlowGraph.Proofs.Reachable
import Mathlib.Data.List.Perm.Subperm
import Mathlib.Data.Multiset.Defs
import Mathlib.Tactic.MkIffOfInductiveProp

namespace FlowGraph

/-- Whether the items of a list are related, one by one and in some order, to those of another. -/
def Rearranged {Item : Type} (related : Item → Item → Prop) (left right : List Item) : Prop :=
  ∃ middle, List.Forall₂ related left middle ∧ middle.Perm right

theorem rearranged_iff {Item Form : Type} {related : Item → Item → Prop} {form : Item → Form}
    (related_iff : ∀ first second, related first second ↔ form first = form second)
    {left right : List Item} :
    Rearranged related left right ↔ (left.map form).Perm (right.map form) := by
  obtain rfl : related = fun first second => form first = form second := by
    funext first second
    exact propext (related_iff first second)
  have paired (middle : List Item) :
      List.Forall₂ (fun first second => form first = form second) left middle ↔
        left.map form = middle.map form := by
    rw [← List.forall₂_eq_eq_eq, List.forall₂_map_left_iff, List.forall₂_map_right_iff]
  constructor
  · intro ⟨middle, each, same⟩
    rw [(paired middle).mp each]
    exact same.map form
  · intro same
    have own : List.Forall₂ (fun given item => given = form item) (right.map form) right := by
      rw [List.forall₂_map_left_iff, List.forall₂_same]
      exact fun item _ => rfl
    obtain ⟨middle, each, perm⟩ := List.perm_comp_forall₂ same own
    rw [List.forall₂_map_left_iff] at each
    exact ⟨middle, each, perm⟩

theorem Rearranged.map_perm {Item Form : Type} {related : Item → Item → Prop} {form : Item → Form}
    {left right : List Item} (rearranged : Rearranged related left right)
    (alike : ∀ first second, related first second → form first = form second) :
    (left.map form).Perm (right.map form) := by
  obtain ⟨middle, each, perm⟩ := rearranged
  exact (rearranged_iff fun _ _ => Iff.rfl).mp ⟨middle, each.imp alike, perm⟩

/-- Optional items are related if they have the same form, or there is none on either side. -/
theorem rel_iff_map_eq {Item Form : Type} {related : Item → Item → Prop} {form : Item → Form}
    (related_iff : ∀ first second, related first second ↔ form first = form second)
    {left right : Option Item} :
    Option.Rel related left right ↔ left.map form = right.map form := by
  constructor
  · intro rel
    cases rel with
    | some alike => exact congrArg some ((related_iff _ _).mp alike)
    | none => rfl
  · intro alike
    cases left with
    | none => cases right with
      | none => exact .none
      | some second => cases alike
    | some first => cases right with
      | none => cases alike
      | some second => exact .some ((related_iff _ _).mpr (Option.some.inj alike))

theorem rel_refl {Item : Type} {related : Item → Item → Prop} (refl : ∀ item, related item item)
    (item : Option Item) : Option.Rel related item item := by
  cases item with
  | some item => exact .some (refl item)
  | none => exact .none

theorem rel_imp {Item : Type} {related alike : Item → Item → Prop}
    (implies : ∀ first second, related first second → alike first second)
    {left right : Option Item} (rel : Option.Rel related left right) :
    Option.Rel alike left right := by
  cases rel with
  | some related => exact .some (implies _ _ related)
  | none => exact .none

theorem rel_of_forall {Item : Type} {related : Item → Item → Prop} {left right : Option Item}
    (forth : ∀ first, left = some first → ∃ second, right = some second ∧ related first second)
    (back : ∀ second, right = some second → ∃ first, left = some first) :
    Option.Rel related left right := by
  cases left with
  | some first =>
    obtain ⟨second, rfl, alike⟩ := forth first rfl
    exact .some alike
  | none => cases right with
    | none => exact .none
    | some second =>
      obtain ⟨first, absurd⟩ := back second rfl
      cases absurd

theorem exists_iff_of_rel {Item : Type} {related : Item → Item → Prop} {left right : Option Item}
    (alike : Option.Rel related left right) :
    (∃ first, left = some first) ↔ ∃ second, right = some second := by
  cases alike with
  | some _ => exact iff_of_true ⟨_, rfl⟩ ⟨_, rfl⟩
  | none => rfl

theorem exists_of_rel {Item : Type} {related : Item → Item → Prop} {left right : Option Item}
    {first : Item} (alike : Option.Rel related left right) (found : left = some first) :
    ∃ second, right = some second ∧ related first second := by
  cases alike with
  | some alike => exact ⟨_, rfl, Option.some.inj found ▸ alike⟩
  | none => cases found

/-! ### Blocks -/

namespace Block

variable {Hash : Type} {hash : Key → Hash} {left right : Block}

/-- Whether blocks are matched: they are equal and have the same hash. -/
def Matches (hash : Key → Hash) (left right : Block) : Prop :=
  left.same right = true ∧ hash left.key = hash right.key

/-- Whether no zero of the metadata of a block is negative. -/
def UnsignedZeros (block : Block) : Prop := block.metadata.unsigned = block.metadata

/-- Whether blocks agree in everything except the order of their edges and their functions. -/
structure Reorders (left right : Block) : Prop where
  address : left.address = right.address
  labels : left.labels = right.labels
  lines : left.lines = right.lines
  lineAddresses : left.lineAddresses = right.lineAddresses
  metadata : left.metadata = right.metadata
  edgesOut : left.edgesOut.Perm right.edgesOut
  edgesIn : left.edgesIn.Perm right.edgesIn

theorem matches_iff : Matches hash left right ↔ left.mark hash = right.mark hash := by
  rw [Matches, same_iff, mark, mark, Prod.mk.injEq, and_comm]

/-- Without negative zeros, equal blocks are matched. -/
theorem matches_iff_same (leftUnsigned : left.UnsignedZeros) (rightUnsigned : right.UnsignedZeros) :
    Matches hash left right ↔ left.same right = true := by
  have contents_eq {block : Block} (unsigned : block.UnsignedZeros) :
      block.contents = block.ordered :=
    congrArg (fun metadata => { block.ordered with metadata }) unsigned
  refine and_iff_left_of_imp fun equal => ?_
  have alike := same_iff.mp equal
  rw [contents_eq leftUnsigned, contents_eq rightUnsigned] at alike
  rw [← key_ordered left, alike, key_ordered]

/-- Without collisions, blocks are matched if they differ in nothing but the order of edges; the
signs of zeros matter. -/
theorem matches_iff_ordered (injective : Function.Injective hash) :
    Matches hash left right ↔ left.ordered = right.ordered := by
  rw [Matches, injective.eq_iff, same_and_key_eq_iff]

theorem Reorders.refl (block : Block) : block.Reorders block :=
  ⟨rfl, rfl, rfl, rfl, rfl, .refl _, .refl _⟩

theorem Reorders.ordered_eq (reorders : left.Reorders right) : left.ordered = right.ordered := by
  rw [ordered, ordered, reorders.address, reorders.labels, reorders.lines, reorders.lineAddresses,
    reorders.metadata, Edge.sort_eq_of_perm reorders.edgesOut,
    Edge.sort_eq_of_perm reorders.edgesIn]

theorem Reorders.mark_eq (reorders : left.Reorders right) : left.mark hash = right.mark hash := by
  rw [← mark_ordered, reorders.ordered_eq, mark_ordered]

theorem Matches.address_eq (alike : Matches hash left right) : left.address = right.address := by
  have addresses := congrArg Block.address (same_iff.mp alike.1)
  exact addresses

theorem sameBlocksBy_iff [DecidableEq Hash] {left right : List Block} :
    sameBlocksBy hash left right = true ↔ Rearranged (Matches hash) left right := by
  rw [sameBlocksBy_iff_perm, rearranged_iff fun _ _ => matches_iff]

/-- Without negative zeros, lists of blocks are compared by matching equal blocks. -/
theorem sameBlocksBy_iff_same [DecidableEq Hash] {left right : List Block}
    (leftUnsigned : ∀ block ∈ left, block.UnsignedZeros)
    (rightUnsigned : ∀ block ∈ right, block.UnsignedZeros) :
    sameBlocksBy hash left right = true ↔
      Rearranged (fun first second => first.same second = true) left right := by
  rw [sameBlocksBy_iff]
  refine exists_congr fun middle => and_congr_left fun perm => ?_
  have middleUnsigned : ∀ block ∈ middle, block.UnsignedZeros :=
    fun block member => rightUnsigned block (perm.mem_iff.mp member)
  simp only [List.forall₂_iff_get]
  refine and_congr_right fun _ => forall_congr' fun number => forall_congr' fun inside =>
    forall_congr' fun within => ?_
  exact matches_iff_same (leftUnsigned _ (List.get_mem left _))
    (middleUnsigned _ (List.get_mem middle _))

end Block

/-! ### Drafts -/

namespace FunctionDraft

/-- Whether drafts agree in everything except the order of their blocks and of the edges of these
blocks. -/
structure Reorders (left right : FunctionDraft) : Prop where
  address : left.address = right.address
  name : left.name = right.name
  isExternal : left.isExternal = right.isExternal
  metadata : left.metadata = right.metadata
  blocks : Rearranged Block.Reorders left.blocks right.blocks

/-- Whether comparing drafts ignores the order of blocks and edges, and comes down to matching where
drafts have a single block. -/
structure IgnoresOrder {Hash : Type} [DecidableEq Hash] (hash : Block.Key → Hash) : Prop where
  equivalence : Equivalence fun left right : FunctionDraft => left.sameBy hash right = true
  reordered : ∀ left right : FunctionDraft, left.Reorders right → left.sameBy hash right = true
  single : ∀ (draft : FunctionDraft) (left right : Block),
    sameBy hash { draft with blocks := [left] } { draft with blocks := [right] } = true ↔
      Block.Matches hash left right

variable {Hash : Type} [DecidableEq Hash] {hash : Block.Key → Hash} {left right : FunctionDraft}

theorem resolvedAddress?_eq (address : left.address = right.address)
    (blocks : (left.blocks.map Block.address).Perm (right.blocks.map Block.address)) :
    left.resolvedAddress? = right.resolvedAddress? := by
  have lowest : (left.blocks.map Block.address).min? = (right.blocks.map Block.address).min? := by
    refine Option.ext fun least => ?_
    simp only [List.min?_eq_some_iff, blocks.mem_iff]
  rw [resolvedAddress?, resolvedAddress?, address, lowest]

/-- What drafts that are the same have in common. -/
def profile (hash : Block.Key → Hash) (draft : FunctionDraft) :
    Option Address × Option String × Bool × Metadata × Multiset (Hash × Block) :=
  (draft.resolvedAddress?, draft.name, draft.isExternal, draft.metadata.unsigned,
    draft.blocks.map (Block.mark hash))

theorem sameBy_iff : left.sameBy hash right = true ↔ left.profile hash = right.profile hash := by
  simp only [sameBy, profile, Bool.and_eq_true, beq_iff_eq, Metadata.same_iff,
    Block.sameBlocksBy_iff_perm, Prod.mk.injEq, Multiset.coe_eq_coe, and_assoc]

omit [DecidableEq Hash] in
theorem profile_eq (address : left.resolvedAddress? = right.resolvedAddress?)
    (name : left.name = right.name) (isExternal : left.isExternal = right.isExternal)
    (metadata : left.metadata = right.metadata)
    (blocks : (left.blocks.map (Block.mark hash)).Perm (right.blocks.map (Block.mark hash))) :
    left.profile hash = right.profile hash := by
  rw [profile, profile, address, name, isExternal, metadata, Multiset.coe_eq_coe.mpr blocks]

theorem ignoresOrder (hash : Block.Key → Hash) : IgnoresOrder hash where
  equivalence := by
    simp only [sameBy_iff]
    exact ⟨fun _ => rfl, Eq.symm, Eq.trans⟩
  reordered left right reorders := by
    refine sameBy_iff.mpr (profile_eq (resolvedAddress?_eq reorders.address ?_) reorders.name
      reorders.isExternal reorders.metadata ?_)
    · exact reorders.blocks.map_perm fun _ _ alike => alike.address
    · exact reorders.blocks.map_perm fun _ _ alike => alike.mark_eq
  single draft left right := by
    rw [sameBy_iff, Block.matches_iff]
    constructor
    · intro same
      simp only [profile, Prod.mk.injEq, Multiset.coe_eq_coe] at same
      exact List.singleton_perm_singleton.mp same.2.2.2.2
    · intro alike
      have matched := Block.matches_iff.mpr alike
      exact profile_eq (resolvedAddress?_eq rfl
        (List.singleton_perm_singleton.mpr matched.address_eq)) rfl rfl rfl
        (List.singleton_perm_singleton.mpr alike)

end FunctionDraft

/-! ### Functions -/

namespace Function

/-- Whether functions agree in everything except the order of their blocks and the signs of
zeros. -/
@[mk_iff]
structure Agrees (left right : Function) : Prop where
  address : left.address = right.address
  name : left.name = right.name
  isExternal : left.isExternal = right.isExternal
  metadata : left.metadata.same right.metadata = true
  blocks : left.blocks.Perm right.blocks

/-- Whether functions agree in everything except the order of their blocks. -/
structure Reorders (left right : Function) : Prop where
  address : left.address = right.address
  name : left.name = right.name
  isExternal : left.isExternal = right.isExternal
  metadata : left.metadata = right.metadata
  blocks : left.blocks.Perm right.blocks

theorem Reorders.refl (function : Function) : function.Reorders function :=
  ⟨rfl, rfl, rfl, rfl, .refl _⟩

theorem Reorders.agrees {left right : Function} (reorders : left.Reorders right) :
    left.Agrees right where
  address := reorders.address
  name := reorders.name
  isExternal := reorders.isExternal
  metadata := reorders.metadata ▸ Metadata.same_self left.metadata
  blocks := reorders.blocks

/-- What functions that agree have in common. -/
def profile (function : Function) :
    Address × Option String × Bool × Metadata × Multiset Address :=
  (function.address, function.name, function.isExternal, function.metadata.unsigned,
    function.blocks)

theorem agrees_iff_profile_eq (left right : Function) :
    left.Agrees right ↔ left.profile = right.profile := by
  simp only [agrees_iff, profile, Prod.mk.injEq, Multiset.coe_eq_coe, Metadata.same_iff]

end Function

/-! ### Graphs -/

namespace Graph

/-- Whether there are matched blocks at an address of two graphs, or none in either. -/
def MatchesAt {Hash : Type} (hash : Block.Key → Hash) (left right : Graph) (address : Address) :
    Prop :=
  Option.Rel (Block.Matches hash) left.blocks[address]? right.blocks[address]?

/-- Whether graphs agree function by function and block by block. -/
@[mk_iff]
structure Agrees {Hash : Type} (hash : Block.Key → Hash) (left right : Graph) : Prop where
  normalizer : left.normalizer = right.normalizer
  metadata : left.metadata.same right.metadata = true
  functions : ∀ home : Address,
    Option.Rel Function.Agrees left.functions[home]? right.functions[home]?
  blocks : ∀ address, left.MatchesAt hash right address

/-- Whether graphs agree in everything except the order of the blocks of functions and of the edges
of blocks, the token store and the index. -/
structure Reorders (left right : Graph) : Prop where
  normalizer : left.normalizer = right.normalizer
  metadata : left.metadata = right.metadata
  functions : ∀ home : Address,
    Option.Rel Function.Reorders left.functions[home]? right.functions[home]?
  blocks : ∀ address : Address,
    Option.Rel Block.Reorders left.blocks[address]? right.blocks[address]?

/-- What graphs that agree have in common. -/
def profile {Hash : Type} (hash : Block.Key → Hash) (graph : Graph) :=
  (graph.normalizer, graph.metadata.unsigned,
    fun home : Address => (graph.functions[home]?).map Function.profile,
    fun address : Address => (graph.blocks[address]?).map (Block.mark hash))

section

variable {Hash : Type} {hash : Block.Key → Hash} {left right : Graph} {home address : Address}
  {function theirs : Function}

theorem matchesAt_iff : left.MatchesAt hash right address ↔
    (left.blocks[address]?).map (Block.mark hash) =
      (right.blocks[address]?).map (Block.mark hash) :=
  rel_iff_map_eq fun _ _ => Block.matches_iff

theorem agrees_iff_profile_eq :
    left.Agrees hash right ↔ left.profile hash = right.profile hash := by
  have functions (home : Address) :
      Option.Rel Function.Agrees left.functions[home]? right.functions[home]? ↔ _ :=
    rel_iff_map_eq fun first second => first.agrees_iff_profile_eq second
  simp only [agrees_iff, profile, Prod.mk.injEq, Metadata.same_iff, matchesAt_iff, functions,
    funext_iff]

theorem Reorders.agrees (reorders : left.Reorders right) : left.Agrees hash right where
  normalizer := reorders.normalizer
  metadata := reorders.metadata ▸ Metadata.same_self left.metadata
  functions home := rel_imp (fun _ _ => Function.Reorders.agrees) (reorders.functions home)
  blocks address := rel_imp (fun _ _ alike => Block.matches_iff.mpr alike.mark_eq)
    (reorders.blocks address)

/-! ### Graphs function by function -/

variable [DecidableEq Hash] (leftLaid : left.Laid) (rightLaid : right.Laid)

include leftLaid rightLaid

/-- The blocks of functions are matched if the functions have blocks at the same addresses, and
these match address by address. -/
theorem sameBlocksBy_blocksOf_iff (found : left.functions[home]? = some function)
    (there : right.functions[home]? = some theirs) :
    Block.sameBlocksBy hash (left.blocksOf function) (right.blocksOf theirs) = true ↔
      function.blocks.Perm theirs.blocks ∧
        ∀ address ∈ function.blocks, left.MatchesAt hash right address := by
  constructor
  · intro same
    have marks := (Block.sameBlocksBy_iff_perm hash).mp same
    refine ⟨?_, fun address listed => matchesAt_iff.mpr ?_⟩
    · rw [← leftLaid.map_address_blocksOf found, ← rightLaid.map_address_blocksOf there]
      exact (Block.sameBlocksBy_iff.mp same).map_perm fun _ _ alike => alike.address_eq
    · -- the partner of a block is at the same address, because equal blocks are
      obtain ⟨block, blockFound, _⟩ := leftLaid.member found address listed
      have marked := List.mem_map_of_mem (f := Block.mark hash)
        (mem_blocksOf.mpr ⟨address, listed, blockFound⟩)
      obtain ⟨other, own, alike⟩ := List.mem_map.mp (marks.mem_iff.mp marked)
      obtain ⟨place, _, otherFound⟩ := mem_blocksOf.mp own
      have addresses := (Block.matches_iff.mpr alike).address_eq
      rw [rightLaid.blockKey otherFound, leftLaid.blockKey blockFound] at addresses
      rw [blockFound, ← addresses, otherFound, Option.map_some, Option.map_some, alike]
  · intro ⟨perm, each⟩
    rw [Block.sameBlocksBy_iff_perm, blocksOf, blocksOf, List.map_filterMap, List.map_filterMap,
      List.filterMap_congr fun address listed => matchesAt_iff.mp (each address listed)]
    exact perm.filterMap _

theorem sameFunctionBy_iff (found : left.functions[home]? = some function)
    (there : right.functions[home]? = some theirs) :
    sameFunctionBy hash left function right theirs = true ↔
      function.Agrees theirs ∧
        ∀ address ∈ function.blocks, left.MatchesAt hash right address := by
  have leftCount := congrArg List.length (leftLaid.map_address_blocksOf found)
  have rightCount := congrArg List.length (rightLaid.map_address_blocksOf there)
  rw [List.length_map] at leftCount rightCount
  simp only [sameFunctionBy, Bool.and_eq_true, beq_iff_eq, leftCount, rightCount, and_true,
    sameBlocksBy_blocksOf_iff leftLaid rightLaid found there, Function.agrees_iff, and_assoc]

theorem exists_function_of_sameBy (same : left.sameBy hash right = true)
    (found : left.functions[home]? = some function) :
    ∃ theirs, right.functions[home]? = some theirs ∧ function.Agrees theirs ∧
      ∀ address ∈ function.blocks, left.MatchesAt hash right address := by
  have each := List.all_eq_true.mp (Bool.and_eq_true_iff.mp same).2 (home, function)
    (Std.ExtTreeMap.mem_toList_iff_getElem?_eq_some.mpr found)
  dsimp only at each
  split at each
  · rename_i theirs there
    exact ⟨theirs, there, (sameFunctionBy_iff leftLaid rightLaid found there).mp each⟩
  · cases each

/-- Equal graphs have functions at the same addresses: there are as many, and each of one graph is
one of the other. -/
theorem addresses_functions_of_sameBy (same : left.sameBy hash right = true) :
    left.functions.addresses.Perm right.functions.addresses := by
  have sizes : left.functions.size = right.functions.size := by
    have first := (Bool.and_eq_true_iff.mp same).1
    exact beq_iff_eq.mp (Bool.and_eq_true_iff.mp first).2
  refine (List.subperm_of_subset left.functions.nodup_addresses fun home member => ?_)
    |>.perm_of_length_le ?_
  · obtain ⟨function, found⟩ := (AddressMap.mem_addresses _ _).mp member
    obtain ⟨theirs, there, _⟩ := exists_function_of_sameBy leftLaid rightLaid same found
    exact AddressMap.mem_addresses_of_getElem? there
  · rw [AddressMap.length_addresses, AddressMap.length_addresses, sizes]

theorem rel_functions_of_sameBy (same : left.sameBy hash right = true) (home : Address) :
    Option.Rel Function.Agrees left.functions[home]? right.functions[home]? := by
  refine rel_of_forall (fun function found => ?_) fun theirs there => ?_
  · obtain ⟨theirs, there, agrees, _⟩ := exists_function_of_sameBy leftLaid rightLaid same found
    exact ⟨theirs, there, agrees⟩
  · refine (AddressMap.mem_addresses _ _).mp ?_
    exact (addresses_functions_of_sameBy leftLaid rightLaid same).mem_iff.mpr
      (AddressMap.mem_addresses_of_getElem? there)

/-- The blocks of equal graphs match: each belongs to a function, and the other graph has its
function as well. -/
theorem matchesAt_of_sameBy (same : left.sameBy hash right = true) (address : Address) :
    left.MatchesAt hash right address := by
  refine rel_of_forall (fun block found => ?_) fun other otherFound => ?_
  · obtain ⟨home, function, parent, owning, _⟩ := leftLaid.owner found
    obtain ⟨_, _, _, matched⟩ := exists_function_of_sameBy leftLaid rightLaid same owning
    exact exists_of_rel
      (matched address ((leftLaid.mem_blocks_iff owning).mpr ⟨block, found, parent⟩)) found
  · obtain ⟨home, theirs, parent, there, _⟩ := rightLaid.owner otherFound
    have listed := (rightLaid.mem_blocks_iff there).mpr ⟨other, otherFound, parent⟩
    have rel := rel_functions_of_sameBy leftLaid rightLaid same home
    obtain ⟨function, owning⟩ := (exists_iff_of_rel rel).mpr ⟨theirs, there⟩
    obtain ⟨partner, partnerThere, agrees⟩ := exists_of_rel rel owning
    rw [Option.some.inj (there.symm.trans partnerThere)] at listed
    obtain ⟨block, found, _⟩ :=
      leftLaid.member owning address (agrees.blocks.mem_iff.mpr listed)
    exact ⟨block, found⟩

/-- Laid out graphs are equal if they agree function by function and block by block. -/
theorem sameBy_iff_agrees : left.sameBy hash right = true ↔ left.Agrees hash right := by
  constructor
  · intro same
    have records := (Bool.and_eq_true_iff.mp same).1
    simp only [Bool.and_eq_true, beq_iff_eq] at records
    exact ⟨records.1.1, records.1.2, rel_functions_of_sameBy leftLaid rightLaid same,
      matchesAt_of_sameBy leftLaid rightLaid same⟩
  · intro agrees
    have addresses : left.functions.addresses.Perm right.functions.addresses := by
      refine (List.perm_ext_iff_of_nodup left.functions.nodup_addresses
        right.functions.nodup_addresses).mpr fun home => ?_
      rw [AddressMap.mem_addresses, AddressMap.mem_addresses]
      exact exists_iff_of_rel (agrees.functions home)
    have sizes := addresses.length_eq
    rw [AddressMap.length_addresses, AddressMap.length_addresses] at sizes
    simp only [sameBy, Bool.and_eq_true, beq_iff_eq, List.all_eq_true]
    refine ⟨⟨⟨agrees.normalizer, agrees.metadata⟩, sizes⟩, fun entry listed => ?_⟩
    have found := Std.ExtTreeMap.mem_toList_iff_getElem?_eq_some.mp listed
    obtain ⟨theirs, there, alike⟩ := exists_of_rel (agrees.functions entry.1) found
    rw [there]
    exact (sameFunctionBy_iff leftLaid rightLaid found there).mpr
      ⟨alike, fun address _ => agrees.blocks address⟩

end

/-- Whether comparing graphs ignores the order of blocks and edges, and comes down to comparing them
function by function and matching them block by block. -/
structure IgnoresOrder {Hash : Type} [DecidableEq Hash] (hash : Block.Key → Hash) : Prop where
  equivalence : Equivalence fun left right : { graph : Graph // graph.Reachable } =>
    left.1.sameBy hash right.1 = true
  reordered : ∀ left right : Graph, left.Reachable → right.Reachable → left.Reorders right →
    left.sameBy hash right = true
  blockwise : ∀ left right : Graph, left.Reachable → right.Reachable →
    (left.sameBy hash right = true ↔ left.Agrees hash right)

theorem ignoresOrder {Hash : Type} [DecidableEq Hash] (hash : Block.Key → Hash) :
    IgnoresOrder hash where
  equivalence := by
    have same_iff (left right : { graph : Graph // graph.Reachable }) :
        left.1.sameBy hash right.1 = true ↔ _ :=
      (sameBy_iff_agrees left.2.sound.toLaid right.2.sound.toLaid).trans agrees_iff_profile_eq
    simp only [same_iff]
    exact ⟨fun _ => rfl, Eq.symm, Eq.trans⟩
  reordered left right leftReachable rightReachable reorders :=
    (sameBy_iff_agrees leftReachable.sound.toLaid rightReachable.sound.toLaid).mpr reorders.agrees
  blockwise left right leftReachable rightReachable :=
    sameBy_iff_agrees leftReachable.sound.toLaid rightReachable.sound.toLaid

end Graph

/-! ### Signs of zeros -/

/-- A block whose metadata is a zero. -/
def Block.zeroed (negative : Bool) : Block :=
  { Block.new 1 with
    metadata := Metadata.ofFields [("x", .number (.real ⟨negative, 0, by decide⟩))] }

theorem Block.same_zeroed : (zeroed false).same (zeroed true) = true := by decide +kernel

theorem Block.key_zeroed_ne : (zeroed false).key ≠ (zeroed true).key := by decide +kernel

theorem Block.not_matches_zeroed : ¬ Matches id (zeroed false) (zeroed true) :=
  fun alike => key_zeroed_ne alike.2

/-! ### All blocks -/

/-- Whatever the hash, blocks are compared in any order by matching equal blocks with the same hash.
Short of negative zeros that is matching equal blocks, and without collisions the signs of zeros are
all that it takes into account beyond equality. Neither for drafts nor for graphs does the order of
blocks or edges matter. -/
theorem compared_in_any_order {Hash : Type} [DecidableEq Hash] (hash : Block.Key → Hash) :
    (∀ left right : List Block, Block.sameBlocksBy hash left right = true ↔
      Rearranged (Block.Matches hash) left right) ∧
    (∀ left right : List Block, (∀ block ∈ left, block.UnsignedZeros) →
      (∀ block ∈ right, block.UnsignedZeros) → (Block.sameBlocksBy hash left right = true ↔
        Rearranged (fun first second => first.same second = true) left right)) ∧
    (Function.Injective hash → ∀ left right : Block,
      Block.Matches hash left right ↔ left.ordered = right.ordered) ∧
    FunctionDraft.IgnoresOrder hash ∧ Graph.IgnoresOrder hash :=
  ⟨fun _ _ => Block.sameBlocksBy_iff, fun _ _ => Block.sameBlocksBy_iff_same,
    fun injective _ _ => Block.matches_iff_ordered injective, FunctionDraft.ignoresOrder hash,
    Graph.ignoresOrder hash⟩

/-- Equal blocks are told apart by the sign of a zero, and so are drafts that hold them. -/
theorem zeros_told_apart :
    Rearranged (fun first second => first.same second = true) [Block.zeroed false]
        [Block.zeroed true] ∧
      Block.sameBlocks [Block.zeroed false] [Block.zeroed true] = false ∧
      FunctionDraft.same { FunctionDraft.empty with blocks := [Block.zeroed false] }
        { FunctionDraft.empty with blocks := [Block.zeroed true] } = false := by
  refine ⟨⟨_, .cons Block.same_zeroed .nil, .refl _⟩, ?_, ?_⟩
  · rw [← Bool.not_eq_true, Block.sameBlocks, Block.sameBlocksBy_iff_perm,
      List.map_singleton, List.map_singleton, List.singleton_perm_singleton, ← Block.matches_iff]
    exact Block.not_matches_zeroed
  · rw [← Bool.not_eq_true, FunctionDraft.same, (FunctionDraft.ignoresOrder id).single]
    exact Block.not_matches_zeroed

/-- Blocks with a positive zero are compared as equal blocks, in any order. Neither does the order
of edges matter, here of a block with two edges, nor does the index of a graph. -/
theorem positive_zeros_compared :
    Block.sameBlocks [Block.zeroed false, Block.new 2] [Block.new 2, Block.zeroed false] = true ∧
      (Block.zeroed false).ordered ≠ (Block.zeroed true).ordered ∧
      FunctionDraft.same
        { FunctionDraft.empty with
          blocks := [Block.zeroed true, ((Block.new 2).addOut 1 .normal).addOut 3 .normal] }
        { FunctionDraft.empty with
          blocks := [((Block.new 2).addOut 3 .normal).addOut 1 .normal, Block.zeroed true] } = true ∧
      (Graph.loopGraph none).same (Graph.loopGraph none).ensureIndex = true := by
  obtain ⟨_, unsigned, injective, drafts, graphs⟩ :=
    compared_in_any_order (id : Block.Key → Block.Key)
  have positive : (Block.zeroed false).UnsignedZeros := Std.ExtTreeMap.toList_inj.mp rfl
  have bare : (Block.new 2).UnsignedZeros := rfl
  refine ⟨(unsigned _ _ ?_ ?_).mpr ?_, ?_, drafts.reordered _ _ ?_, graphs.reordered _ _ ?_ ?_ ?_⟩
  · exact List.forall_mem_cons.mpr ⟨positive, List.forall_mem_singleton.mpr bare⟩
  · exact List.forall_mem_cons.mpr ⟨bare, List.forall_mem_singleton.mpr positive⟩
  · exact ⟨_, .cons (Block.same_iff.mpr rfl) (.cons (Block.same_iff.mpr rfl) .nil), .swap _ _ _⟩
  · exact fun alike =>
      Block.not_matches_zeroed ((injective Function.injective_id _ _).mpr alike)
  · have forked : (((Block.new 2).addOut 1 .normal).addOut 3 .normal).Reorders
        (((Block.new 2).addOut 3 .normal).addOut 1 .normal) :=
      ⟨rfl, rfl, rfl, rfl, rfl, .swap _ _ _, .refl _⟩
    exact ⟨rfl, rfl, rfl, rfl, _, .cons (.refl _) (.cons forked .nil), .swap _ _ _⟩
  · exact Graph.reachable_loopGraph none
  · exact (Graph.reachable_loopGraph none).ensureIndex
  · exact ⟨rfl, rfl, fun home => rel_refl Function.Reorders.refl _,
      fun address => rel_refl Block.Reorders.refl _⟩

end FlowGraph
