/-
This file says when a range of addresses fits some gap of a graph. The gaps are
computed from the ranges that lines occupy, sorted and joined, with sums that
are cut off at the end of the address space. What comes out needs none of this:
some gap reaches over a range of addresses if and only if that range ends no
later than the search and lies beside every range of lines by itself. Padding
on both sides only makes the range longer.

Joining loses nothing because there is no room between two ranges that touch.
The joined ranges ascend, and a range that lies beside all of them lies in front
of the first, or behind it and then in a gap of the others.
-/

import FlowGraph.Library
import Mathlib.Algebra.Ring.Nat
import Mathlib.Data.List.Basic

namespace FlowGraph

/-! ### Sums at the end of the address space -/

theorem toNat_addUpTo (left right : Address) :
    (addUpTo left right).toNat = min (left.toNat + right.toNat) (2 ^ 64 - 1) := by
  have size : UInt64.size = 2 ^ 64 := rfl
  unfold addUpTo
  split
  · rw [UInt64.toNat_add]
    omega
  · have highest : (0xffffffffffffffff : Address).toNat = 2 ^ 64 - 1 := rfl
    omega

theorem addWithin?_eq_some_iff {left right sum : Address} :
    addWithin? left right = some sum ↔ left.toNat + right.toNat = sum.toNat := by
  have size : UInt64.size = 2 ^ 64 := rfl
  have bounded := sum.toNat_lt
  unfold addWithin?
  split
  · rw [Option.some.injEq, ← UInt64.toNat_inj, UInt64.toNat_add]
    omega
  · exact ⟨fun equal => (nomatch equal), fun equal => by omega⟩

theorem addWithin?_eq_none_iff {left right : Address} :
    addWithin? left right = none ↔ 2 ^ 64 ≤ left.toNat + right.toNat := by
  have size : UInt64.size = 2 ^ 64 := rfl
  unfold addWithin?
  split
  · exact ⟨fun equal => (nomatch equal), fun beyond => by omega⟩
  · exact ⟨fun _ => by omega, fun _ => rfl⟩

namespace Gap

/-! ### Room in one gap -/

/-- Whether a gap has room for a range of addresses with padding on both sides. -/
def Fits (gap : Gap) (low high : Nat) : Prop :=
  gap.start.toNat + 16 ≤ low ∧ high + 16 ≤ gap.stop.toNat

/-- Cut-off sums do not matter: behind the highest address there is no padding. -/
theorem holds_iff {gap : Gap} {start span : Address} :
    gap.holds start span = true ↔ gap.Fits start.toNat (start.toNat + span.toNat) := by
  have padding : insertionPadding.toNat = 16 := rfl
  have front := toNat_addUpTo gap.start insertionPadding
  have bounded := gap.stop.toNat_lt
  unfold holds Fits
  rw [Bool.and_eq_true, decide_eq_true_iff, UInt64.le_iff_toNat_le]
  cases within : addWithin? start span with
  | none =>
    rw [addWithin?_eq_none_iff] at within
    simp only [Option.bind_none, Bool.false_eq_true, and_false, false_iff]
    omega
  | some last =>
    rw [addWithin?_eq_some_iff] at within
    rw [Option.bind_some]
    cases padded : addWithin? last insertionPadding with
    | none =>
      rw [addWithin?_eq_none_iff] at padded
      simp only [Bool.false_eq_true, and_false, false_iff]
      omega
    | some stop =>
      rw [addWithin?_eq_some_iff] at padded
      simp only [decide_eq_true_iff, UInt64.le_iff_toNat_le]
      omega

end Gap

theorem Graph.fitsGap_iff {least greatest offset : Address} {gap : Gap}
    (ordered : least.toNat ≤ greatest.toNat) :
    fitsGap least (greatest - least) gap offset = true ↔
      gap.Fits (least.toNat + offset.toNat) (greatest.toNat + offset.toNat) := by
  have span : (greatest - least).toNat = greatest.toNat - least.toNat :=
    UInt64.toNat_sub_of_le _ _ (UInt64.le_iff_toNat_le.mpr ordered)
  unfold fitsGap
  cases moved : addWithin? least offset with
  | none =>
    have bounded := gap.stop.toNat_lt
    rw [addWithin?_eq_none_iff] at moved
    simp only [Gap.Fits, Bool.false_eq_true, false_iff]
    omega
  | some start =>
    rw [addWithin?_eq_some_iff] at moved
    simp only [Gap.holds_iff]
    rw [← moved, span]
    unfold Gap.Fits
    omega

namespace Gap

/-! ### Ranges in gaps and beside each other -/

/-- Whether a gap reaches over a range of addresses. The end of the range is not part of it. -/
def Encloses (gap : Gap) (low past : Nat) : Prop :=
  gap.start.toNat ≤ low ∧ past ≤ gap.stop.toNat

/-- A range fits into a gap that reaches over the range with its padding. -/
theorem fits_iff {gap : Gap} {low high : Nat} :
    gap.Fits low high ↔ 16 ≤ low ∧ gap.Encloses (low - 16) (high + 16) := by
  unfold Fits Encloses
  omega

/-- Whether a range of addresses keeps its distance from another one. -/
def Apart (low high : Nat) (range : Address × Address) : Prop :=
  high + 16 ≤ range.1.toNat ∨ range.2.toNat + 16 ≤ low

instance (low high : Nat) (range : Address × Address) : Decidable (Apart low high range) :=
  inferInstanceAs (Decidable (_ ∨ _))

/-- Whether a range of addresses lies in front of another one or behind it. The ends of the ranges
are not part of them. -/
def Beside (low past : Nat) (range : Address × Address) : Prop :=
  past ≤ range.1.toNat ∨ range.2.toNat ≤ low

/-- A range keeps its distance if the range with its padding lies beside the other one. -/
theorem apart_iff {low high : Nat} (front : 16 ≤ low) {range : Address × Address} :
    Apart low high range ↔ Beside (low - 16) (high + 16) range := by
  unfold Apart Beside
  omega

/-! ### Ranges that ascend -/

/-- Whether ranges follow each other from an address on. -/
def Ascend (cursor : Address) : List (Address × Address) → Prop
  | [] => True
  | range :: rest =>
    cursor.toNat ≤ range.1.toNat ∧ range.1.toNat ≤ range.2.toNat ∧ Ascend range.2 rest

theorem Ascend.le_of_mem {cursor : Address} {ranges : List (Address × Address)}
    (ascend : Ascend cursor ranges) {range : Address × Address} (member : range ∈ ranges) :
    cursor.toNat ≤ range.1.toNat ∧ range.1.toNat ≤ range.2.toNat := by
  induction ranges generalizing cursor with
  | nil => cases member
  | cons first rest inductionHypothesis =>
    obtain ⟨follows, ordered, later⟩ := ascend
    rcases List.mem_cons.mp member with rfl | below
    · exact ⟨follows, ordered⟩
    · obtain ⟨behind, own⟩ := inductionHypothesis later below
      exact ⟨by omega, own⟩

/-- The last of several ranges that follow each other ends where none ends later. -/
theorem Ascend.le_last {cursor : Address} {ranges : List (Address × Address)}
    (ascend : Ascend cursor ranges) {last : Address × Address}
    (isLast : ranges.getLast? = some last) :
    ∀ range ∈ ranges, range.2.toNat ≤ last.2.toNat := by
  induction ranges generalizing cursor with
  | nil => cases isLast
  | cons first rest inductionHypothesis =>
    cases rest with
    | nil =>
      rw [List.getLast?_singleton, Option.some.injEq] at isLast
      rw [isLast]
      exact List.forall_mem_singleton.mpr (Nat.le_refl _)
    | cons second others =>
      rw [List.getLast?_cons_cons] at isLast
      obtain ⟨_, _, later⟩ := ascend
      have below := inductionHypothesis later isLast
      refine List.forall_mem_cons.mpr ⟨?_, below⟩
      have follows := later.le_of_mem List.mem_cons_self
      have ends := below second List.mem_cons_self
      omega

/-- Between ranges that follow each other some gap reaches over a range that lies between where the
gaps begin and end, and beside each of the others. -/
theorem exists_between_iff {low past : Nat} {cursor limit : Address}
    {ranges : List (Address × Address)} (ascend : Ascend cursor ranges)
    (within : ∀ range ∈ ranges, range.2.toNat ≤ limit.toNat) :
    (∃ gap ∈ between cursor limit ranges, gap.Encloses low past) ↔
      cursor.toNat ≤ low ∧ past ≤ limit.toNat ∧ ∀ range ∈ ranges, Beside low past range := by
  induction ranges generalizing cursor with
  | nil =>
    simp [between, Encloses]
  | cons range rest inductionHypothesis =>
    obtain ⟨follows, extent, later⟩ := ascend
    rw [List.forall_mem_cons] at within ⊢
    rw [between, List.exists_mem_cons_iff, inductionHypothesis later within.2]
    dsimp only [Encloses]
    constructor
    · rintro (⟨front, behind⟩ | ⟨front, behind, beside⟩)
      · -- in front of the first range, and so of all
        refine ⟨front, by omega, Or.inl behind, fun other member => Or.inl ?_⟩
        have := (later.le_of_mem member).1
        omega
      · exact ⟨by omega, behind, Or.inr front, beside⟩
    · rintro ⟨front, behind, before | after, beside⟩
      · exact Or.inl ⟨front, before⟩
      · exact Or.inr ⟨after, behind, beside⟩

/-! ### Joined ranges -/

/-- Joining makes ranges follow each other, in whatever order they come. -/
theorem ascend_joinRanges {cursor : Address} {current : Address × Address}
    {ranges : List (Address × Address)} (follows : cursor.toNat ≤ current.1.toNat)
    (extent : current.1.toNat ≤ current.2.toNat)
    (extents : ∀ range ∈ ranges, range.1.toNat ≤ range.2.toNat) :
    Ascend cursor (joinRanges current ranges) := by
  induction ranges generalizing cursor current with
  | nil => exact ⟨follows, extent, trivial⟩
  | cons range rest inductionHypothesis =>
    rw [List.forall_mem_cons] at extents
    rw [joinRanges]
    split
    · refine inductionHypothesis follows ?_ extents.2
      rw [UInt64.toNat_max]
      exact Nat.le_trans extent (Nat.le_max_left _ _)
    · -- a range that is not joined begins behind the current one, by the comparison itself
      rename_i separate
      rw [UInt64.le_iff_toNat_le] at separate
      exact ⟨follows, extent, inductionHypothesis (by omega) extents.1 extents.2⟩

/-- Whether a property of ranges holds of a joined range exactly if it does of both parts, where
the second part begins no earlier than the first one and no later than that one ends. -/
def Joinable (Holds : Address × Address → Prop) : Prop :=
  ∀ current range : Address × Address, current.1.toNat ≤ range.1.toNat →
    range.1.toNat ≤ current.2.toNat →
      (Holds (current.1, max current.2 range.2) ↔ Holds current ∧ Holds range)

theorem joinable_beside {low past : Nat} (nonempty : low < past) : Joinable (Beside low past) := by
  intro current range begins touches
  unfold Beside
  dsimp only
  rw [UInt64.toNat_max]
  -- behind the one and in front of the other there would be no room for the range
  omega

theorem joinable_below (bound : Nat) : Joinable fun range => range.2.toNat < bound := by
  intro current range _ _
  dsimp only
  rw [UInt64.toNat_max, Nat.max_lt]

/-- Such a property holds of all joined ranges exactly if it does of the single ones. -/
theorem forall_joinRanges_iff {Holds : Address × Address → Prop} (joinable : Joinable Holds)
    {current : Address × Address} {ranges : List (Address × Address)}
    (ascending : (current :: ranges).Pairwise fun first second => first.1.toNat ≤ second.1.toNat) :
    (∀ range ∈ joinRanges current ranges, Holds range) ↔
      ∀ range ∈ current :: ranges, Holds range := by
  induction ranges generalizing current with
  | nil => rfl
  | cons range rest inductionHypothesis =>
    obtain ⟨first, others⟩ := List.pairwise_cons.mp ascending
    rw [joinRanges]
    split
    · rename_i touches
      rw [UInt64.le_iff_toNat_le] at touches
      have joined : ((current.1, max current.2 range.2) :: rest).Pairwise
          fun first second => first.1.toNat ≤ second.1.toNat :=
        List.pairwise_cons.mpr ⟨fun other member => first other (List.mem_cons_of_mem _ member),
          (List.pairwise_cons.mp others).2⟩
      rw [inductionHypothesis joined, List.forall_mem_cons, List.forall_mem_cons,
        List.forall_mem_cons, joinable _ _ (first range List.mem_cons_self) touches, and_assoc]
    · rw [List.forall_mem_cons, inductionHypothesis others, List.forall_mem_cons (a := current)]

end Gap

/-! ### The ranges of blocks -/

instance : Std.LawfulOrderMax Address where
  max_eq_or left right := by
    rw [← UInt64.toNat_inj, ← UInt64.toNat_inj, UInt64.toNat_max]
    omega
  max_le_iff left right bound := by
    simp only [UInt64.le_iff_toNat_le, UInt64.toNat_max]
    omega

namespace Block

/-- The addresses of a block's lines, or the block's own address where those are not known. -/
def instructions (block : Block) : List Address :=
  if block.hasLineAddresses then block.lineAddresses else [block.address]

/-- The extent of a block reaches from its lowest to its highest instruction. -/
theorem extent_spec (block : Block) :
    block.extent.1 ∈ block.instructions ∧ block.extent.2 ∈ block.instructions ∧
      ∀ address ∈ block.instructions, block.extent.1.toNat ≤ address.toNat ∧
        address.toNat ≤ block.extent.2.toNat := by
  unfold extent instructions hasLineAddresses
  cases block.lineAddresses with
  | nil => simp
  | cons first rest =>
    obtain ⟨least, lowest⟩ := Option.isSome_iff_exists.mp
      (List.isSome_min?_of_mem (List.mem_cons_self (a := first) (l := rest)))
    obtain ⟨greatest, highest⟩ := Option.isSome_iff_exists.mp
      (List.isSome_max?_of_mem (List.mem_cons_self (a := first) (l := rest)))
    rw [lowest, highest]
    obtain ⟨leastMember, below⟩ := List.min?_eq_some_iff.mp lowest
    obtain ⟨greatestMember, above⟩ := List.max?_eq_some_iff.mp highest
    exact ⟨leastMember, greatestMember, fun address member =>
      ⟨UInt64.le_iff_toNat_le.mp (below address member),
        UInt64.le_iff_toNat_le.mp (above address member)⟩⟩

theorem extent_ordered (block : Block) : block.extent.1.toNat ≤ block.extent.2.toNat :=
  (block.extent_spec.2.2 _ block.extent_spec.2.1).1

end Block

namespace Gap

/-! ### The occupied ranges of a graph -/

theorem rangePrecedes_iff {left right : Address × Address} :
    rangePrecedes left right = true ↔ left.1.toNat < right.1.toNat ∨
      left.1.toNat = right.1.toNat ∧ left.2.toNat ≤ right.2.toNat := by
  unfold rangePrecedes
  by_cases same : left.1 = right.1
  · rw [if_neg (not_not.mpr same), decide_eq_true_iff, UInt64.le_iff_toNat_le, same]
    omega
  · rw [if_pos same, decide_eq_true_iff, UInt64.lt_iff_toNat_lt]
    rw [← UInt64.toNat_inj] at same
    omega

/-- The occupied ranges are the extents of the blocks, put in ascending order and joined. -/
theorem exists_ascending_extents (graph : Graph) : ∃ extents : List (Address × Address),
    (∀ range, range ∈ extents ↔ ∃ block ∈ graph.blockList, block.extent = range) ∧
      extents.Pairwise (fun first second => first.1.toNat ≤ second.1.toNat) ∧
      occupied graph = match extents with
        | [] => []
        | first :: rest => joinRanges first rest := by
  refine ⟨_, fun range => (List.mergeSort_perm _ rangePrecedes).mem_iff.trans List.mem_map, ?_,
    rfl⟩
  refine (List.pairwise_mergeSort (fun first second third before after => ?_)
    (fun first second => ?_) (graph.blockList.map Block.extent)).imp fun precedes => ?_
  · rw [rangePrecedes_iff] at before after ⊢
    omega
  · rw [Bool.or_eq_true, rangePrecedes_iff, rangePrecedes_iff]
    omega
  · rw [rangePrecedes_iff] at precedes
    omega

theorem ascend_occupied (graph : Graph) : Ascend 0 (occupied graph) := by
  obtain ⟨extents, members, _, joined⟩ := exists_ascending_extents graph
  have ordered (range : Address × Address) (member : range ∈ extents) :
      range.1.toNat ≤ range.2.toNat := by
    obtain ⟨block, _, rfl⟩ := (members range).mp member
    exact block.extent_ordered
  rw [joined]
  cases extents with
  | nil => trivial
  | cons first rest =>
    rw [List.forall_mem_cons] at ordered
    exact ascend_joinRanges (Nat.zero_le _) ordered.1 ordered.2

/-- What may be joined holds of the occupied ranges exactly if it does of the extent of every
block. -/
theorem forall_occupied_iff (graph : Graph) {Holds : Address × Address → Prop}
    (joinable : Joinable Holds) :
    (∀ range ∈ occupied graph, Holds range) ↔ ∀ block ∈ graph.blockList, Holds block.extent := by
  obtain ⟨extents, members, ascending, joined⟩ := exists_ascending_extents graph
  have single : (∀ range ∈ extents, Holds range) ↔
      ∀ block ∈ graph.blockList, Holds block.extent := by
    simp only [members, forall_exists_index, and_imp, forall_apply_eq_imp_iff₂]
  rw [joined, ← single]
  cases extents with
  | nil => rfl
  | cons first rest => exact forall_joinRanges_iff joinable ascending

/-! ### The end of the search -/

theorem searchLimit_spec {cursor : Address} {ranges : List (Address × Address)}
    (ascend : Ascend cursor ranges) :
    (∀ range ∈ ranges, range.2.toNat < 2 ^ 32) ∧ (searchLimit ranges).toNat = 2 ^ 32 ∨
      (¬ ∀ range ∈ ranges, range.2.toNat < 2 ^ 32) ∧ (searchLimit ranges).toNat = 2 ^ 64 - 1 := by
  have usual : usualLimit.toNat = 2 ^ 32 := rfl
  unfold searchLimit
  split
  · rename_i last isLast
    split
    · rename_i reaches
      rw [UInt64.le_iff_toNat_le] at reaches
      refine Or.inr ⟨fun below => ?_, rfl⟩
      have := below last (List.mem_of_getLast? isLast)
      omega
    · rename_i short
      rw [UInt64.le_iff_toNat_le] at short
      refine Or.inl ⟨fun range member => ?_, rfl⟩
      have := ascend.le_last isLast range member
      omega
  · rename_i without
    rw [List.getLast?_eq_none_iff] at without
    exact Or.inl ⟨by simp [without], rfl⟩

theorem occupied_le_searchLimit (graph : Graph) : ∀ range ∈ occupied graph,
    range.2.toNat ≤ (searchLimit (occupied graph)).toNat := by
  intro range member
  rcases searchLimit_spec (ascend_occupied graph) with ⟨below, limit⟩ | ⟨_, limit⟩
  · have := below range member
    omega
  · have := range.2.toNat_lt
    omega

end Gap

namespace Graph

/-- The end of the addresses where a library may lie: the highest address if some block reaches
to 2 ^ 32 or beyond, or else 2 ^ 32. -/
def searchEnd (graph : Graph) : Nat :=
  if graph.blockList.any fun block => 2 ^ 32 ≤ block.extent.2.toNat then 2 ^ 64 - 1 else 2 ^ 32

/-- Whether a range of addresses keeps its distance from zero, from the end of the search and
from the lines of every block. -/
structure Clear (graph : Graph) (low high : Nat) : Prop where
  front : 16 ≤ low
  behind : high + 16 ≤ graph.searchEnd
  apart : ∀ block ∈ graph.blockList, Gap.Apart low high block.extent

theorem toNat_searchLimit_occupied (graph : Graph) :
    (Gap.searchLimit (Gap.occupied graph)).toNat = graph.searchEnd := by
  have reach : (graph.blockList.any fun block => 2 ^ 32 ≤ block.extent.2.toNat) = true ↔
      ¬ ∀ block ∈ graph.blockList, block.extent.2.toNat < 2 ^ 32 := by
    simp only [List.any_eq_true, decide_eq_true_iff, not_forall, Nat.not_lt, exists_prop]
  unfold searchEnd
  rw [← Gap.forall_occupied_iff graph (Gap.joinable_below _)] at reach
  rcases Gap.searchLimit_spec (Gap.ascend_occupied graph) with ⟨below, limit⟩ | ⟨beyond, limit⟩
  · rw [if_neg fun some => reach.mp some below, limit]
  · rw [if_pos (reach.mpr beyond), limit]

/-- The gaps are what lies beside the lines of all blocks: some gap reaches over a range of
addresses exactly if no block is in its way. -/
theorem exists_free_encloses_iff (graph : Graph) {low past : Nat} (nonempty : low < past) :
    (∃ gap ∈ Gap.free graph, gap.Encloses low past) ↔
      past ≤ graph.searchEnd ∧
        ∀ block ∈ graph.blockList, Gap.Beside low past block.extent := by
  rw [Gap.free, Gap.exists_between_iff (Gap.ascend_occupied graph)
    (Gap.occupied_le_searchLimit graph),
    Gap.forall_occupied_iff graph (Gap.joinable_beside nonempty), toNat_searchLimit_occupied]
  exact and_iff_right (Nat.zero_le low)

/-- A range of addresses fits some gap of a graph exactly if it keeps its distance from all that
is there. -/
theorem exists_free_iff (graph : Graph) {low high : Nat} (ordered : low ≤ high) :
    (∃ gap ∈ Gap.free graph, gap.Fits low high) ↔ graph.Clear low high := by
  have padded : low - 16 < high + 16 := by omega
  have room := exists_free_encloses_iff graph padded
  constructor
  · rintro ⟨gap, member, fits⟩
    obtain ⟨front, encloses⟩ := Gap.fits_iff.mp fits
    obtain ⟨behind, beside⟩ := room.mp ⟨gap, member, encloses⟩
    exact ⟨front, behind, fun block listed => (Gap.apart_iff front).mpr (beside block listed)⟩
  · rintro ⟨front, behind, apart⟩
    obtain ⟨gap, member, encloses⟩ := room.mpr
      ⟨behind, fun block listed => (Gap.apart_iff front).mp (apart block listed)⟩
    exact ⟨gap, member, Gap.fits_iff.mpr ⟨front, encloses⟩⟩

end Graph

end FlowGraph
