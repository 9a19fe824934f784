/-
This file proves what counting blocks by their hashes decides, whatever the hash. Blocks are
counted together if they are equal and have the same hash, so a block counts for its mark: its
hash, and its contents without all that equality overlooks. A step adds to the count of one mark;
at the end the counts are the differences between how often a mark occurs in the one list and in
the other. Every count is kept in one place. So all counts are zero exactly if the marks of the
one list are those of the other in some order.
-/

import FlowGraph.Proofs.BlockEdges
import FlowGraph.Proofs.SignedZeros
import Mathlib.Algebra.BigOperators.Group.List.Basic
import Mathlib.Data.List.Perm.Basic

namespace FlowGraph.Block

/-! ### Changing one item -/

section

variable {Item Name : Type} {passes : Item → Bool} {change : Item → Item} {new : Item}
  {items : List Item}

/-- One item that passes was changed, or none does and there is a new one. -/
theorem changeFirst_cases (passes : Item → Bool) (change : Item → Item) (new : Item)
    (items : List Item) :
    (∃ before item after, items = before ++ item :: after ∧ passes item = true ∧
      changeFirst passes change new items = before ++ change item :: after) ∨
    (∀ item ∈ items, passes item = false) ∧
      changeFirst passes change new items = items ++ [new] := by
  induction items with
  | nil => exact Or.inr ⟨nofun, rfl⟩
  | cons item rest inductionHypothesis =>
    rw [changeFirst]
    by_cases here : passes item = true
    · rw [if_pos here]
      exact Or.inl ⟨[], item, rest, rfl, here, rfl⟩
    · rw [if_neg here]
      rcases inductionHypothesis with ⟨before, found, after, rfl, passed, changed⟩ | ⟨none, added⟩
      · rw [changed]
        exact Or.inl ⟨item :: before, found, after, rfl, passed, rfl⟩
      · rw [added]
        exact Or.inr ⟨List.forall_mem_cons.mpr ⟨Bool.not_eq_true _ ▸ here, none⟩, rfl⟩

theorem sum_map_changeFirst {value : Item → Int} {growth : Int}
    (grows : ∀ item, passes item = true → value (change item) = value item + growth)
    (begins : value new = growth) :
    ((changeFirst passes change new items).map value).sum = (items.map value).sum + growth := by
  rcases changeFirst_cases passes change new items with
    ⟨before, item, after, rfl, passed, changed⟩ | ⟨_, added⟩
  · rw [changed, List.map_append, List.map_append, List.sum_append, List.sum_append, List.map_cons,
      List.map_cons, List.sum_cons, List.sum_cons, grows item passed]
    omega
  · rw [added, List.map_append, List.sum_append, List.map_singleton, List.sum_singleton, begins]

/-- Items keep names of their own if those that pass are called like the new one. -/
theorem nodup_map_changeFirst {name : Item → Name} (distinct : (items.map name).Nodup)
    (keeps : ∀ item, name (change item) = name item)
    (passes_of_name_eq : ∀ item, name item = name new → passes item = true) :
    ((changeFirst passes change new items).map name).Nodup := by
  rcases changeFirst_cases passes change new items with
    ⟨before, item, after, rfl, _, changed⟩ | ⟨none, added⟩
  · rw [changed, List.map_append, List.map_cons, keeps, ← List.map_cons, ← List.map_append]
    exact distinct
  · rw [added, List.map_append, List.map_singleton, ← List.concat_eq_append]
    refine distinct.concat fun member => ?_
    obtain ⟨item, listed, same⟩ := List.mem_map.mp member
    exact Bool.false_ne_true ((none item listed).symm.trans (passes_of_name_eq item same))

theorem forall_mem_changeFirst {good : Item → Prop} (each : ∀ item ∈ items, good item)
    (changed : ∀ item, good item → good (change item)) (added : good new) :
    ∀ item ∈ changeFirst passes change new items, good item := by
  rcases changeFirst_cases passes change new items with
    ⟨before, item, after, rfl, _, made⟩ | ⟨_, made⟩
  · rw [List.forall_mem_append, List.forall_mem_cons] at each
    rw [made, List.forall_mem_append, List.forall_mem_cons]
    exact ⟨each.1, changed item each.2.1, each.2.2⟩
  · rw [made, List.forall_mem_append, List.forall_mem_singleton]
    exact ⟨each, added⟩

/-- If only what is called like an item counts, then the item itself is all that counts. -/
theorem sum_map_eq_of_nodup {name : Item → Name} {value : Item → Int} {item : Item}
    (distinct : (items.map name).Nodup) (member : item ∈ items)
    (others : ∀ other, name other ≠ name item → value other = 0) :
    (items.map value).sum = value item := by
  classical
  rw [List.sum_map_eq_nsmul_single item value fun other different listed => others other
      fun same => different (List.inj_on_of_nodup_map distinct listed member same),
    List.count_eq_one_of_mem distinct.of_map member, one_nsmul]

end

/-! ### Equal blocks -/

/-- The block outside of any function, its edges in ascending order. -/
def ordered (block : Block) : Block :=
  { block with
    edgesOut := Edge.sort block.edgesOut
    edgesIn := Edge.sort block.edgesIn
    parent := none }

/-- The block without all that equality overlooks: zeros lose their signs as well. -/
def contents (block : Block) : Block :=
  { block.ordered with metadata := block.ordered.metadata.unsigned }

theorem same_iff {left right : Block} :
    left.same right = true ↔ left.contents = right.contents := by
  simp only [same, contents, ordered, Bool.and_eq_true, beq_iff_eq, Metadata.same_iff, mk.injEq,
    and_true, and_assoc]

theorem key_ordered (block : Block) : block.ordered.key = block.key := by
  unfold key ordered
  dsimp only
  rw [Edge.sort_sort, Edge.sort_sort]

theorem ordered_ordered (block : Block) : block.ordered.ordered = block.ordered := by
  unfold ordered
  dsimp only
  rw [Edge.sort_sort, Edge.sort_sort]

/-- Equal blocks with one key have the same metadata, signs of zeros included. -/
theorem same_and_key_eq_iff {left right : Block} :
    left.same right = true ∧ left.key = right.key ↔ left.ordered = right.ordered := by
  constructor
  · intro ⟨equal, keys⟩
    have texts : left.metadata.toJson.toText = right.metadata.toJson.toText :=
      congrArg Key.metadata keys
    simp only [same, Bool.and_eq_true, beq_iff_eq, and_assoc] at equal
    obtain ⟨address, labels, lines, lineAddresses, metadata, edgesOut, edgesIn⟩ := equal
    rw [ordered, ordered, address, labels, lines, lineAddresses, edgesOut, edgesIn,
      Metadata.eq_of_same_of_toText_eq metadata texts]
  · intro alike
    rw [same_iff, contents, contents, ← key_ordered left, ← key_ordered right, alike]
    exact ⟨rfl, rfl⟩

/-! ### Counting by hash -/

section

variable {Hash : Type} [DecidableEq Hash] (hash : Key → Hash)

/-- What a block counts for. -/
def mark (block : Block) : Hash × Block := (hash block.key, block.contents)

open scoped Classical in
/-- How often blocks with these contents were counted. -/
noncomputable def tallied (content : Block) (tallies : List Tally) : Int :=
  (tallies.map fun tally => if tally.sample.contents = content then tally.count else 0).sum

open scoped Classical in
/-- How often blocks with this mark were counted. -/
noncomputable def counted (mark : Hash × Block) (buckets : List (Bucket Hash)) : Int :=
  (buckets.map fun bucket =>
    if bucket.hash = mark.1 then tallied mark.2 bucket.tallies else 0).sum

open scoped Classical in
theorem tallied_countIn (content : Block) (step : Int) (block : Block) (tallies : List Tally) :
    tallied content (countIn step block tallies) =
      tallied content tallies + if block.contents = content then step else 0 := by
  refine sum_map_changeFirst (fun tally equal => ?_) rfl
  show (if tally.sample.contents = content then tally.count + step else 0) = _
  rw [same_iff.mp equal]
  split
  · rfl
  · rfl

open scoped Classical in
/-- A block is counted for its own mark and for no other. -/
theorem counted_countByHash (target : Hash × Block) (step : Int) (buckets : List (Bucket Hash))
    (block : Block) : counted target (countByHash hash step buckets block) =
      counted target buckets + if block.mark hash = target then step else 0 := by
  have split_mark : (if block.mark hash = target then step else 0) =
      if hash block.key = target.1 then if block.contents = target.2 then step else 0 else 0 := by
    rw [← ite_and]
    exact if_congr Prod.ext_iff rfl rfl
  rw [split_mark]
  refine sum_map_changeFirst (fun bucket found => ?_) ?_
  · show (if bucket.hash = target.1 then tallied target.2 (countIn step block bucket.tallies)
      else 0) = _
    rw [of_decide_eq_true found, tallied_countIn]
    split
    · rfl
    · rfl
  · show (if hash block.key = target.1 then tallied target.2 (countIn step block []) else 0) = _
    rw [tallied_countIn]
    exact congrArg (fun count => if hash block.key = target.1 then count else 0) (zero_add _)

open scoped Classical in
/-- Counting a whole list adds how often a mark occurs in it. -/
theorem counted_foldl (target : Hash × Block) (step : Int) (blocks : List Block)
    (buckets : List (Bucket Hash)) :
    counted target (blocks.foldl (countByHash hash step) buckets) =
      counted target buckets + step * (blocks.map (mark hash)).count target := by
  induction blocks generalizing buckets with
  | nil => simp
  | cons block rest inductionHypothesis =>
    rw [List.foldl_cons, inductionHypothesis, counted_countByHash, List.map_cons, List.count_cons]
    by_cases here : block.mark hash = target
    · simp [here, mul_add]
      omega
    · simp [here]

/-! ### Places of counts -/

/-- Whether everything is counted in one place: no hash has two buckets, and in a bucket no two
samples are equal. -/
structure Apart (buckets : List (Bucket Hash)) : Prop where
  hashes : (buckets.map Bucket.hash).Nodup
  samples : ∀ bucket ∈ buckets, (bucket.tallies.map fun tally => tally.sample.contents).Nodup

theorem Apart.nil (Hash : Type) : Apart ([] : List (Bucket Hash)) :=
  ⟨List.nodup_nil, fun _ member => (List.not_mem_nil member).elim⟩

theorem nodup_countIn {tallies : List Tally} (step : Int) (block : Block)
    (distinct : (tallies.map fun tally => tally.sample.contents).Nodup) :
    ((countIn step block tallies).map fun tally => tally.sample.contents).Nodup :=
  nodup_map_changeFirst distinct (fun _ => rfl) fun _ => same_iff.mpr

theorem Apart.countByHash {buckets : List (Bucket Hash)} (apart : Apart buckets) (step : Int)
    (block : Block) : Apart (countByHash hash step buckets block) where
  hashes := nodup_map_changeFirst apart.hashes (fun _ => rfl) fun _ => decide_eq_true
  samples := forall_mem_changeFirst apart.samples (fun _ => nodup_countIn step block)
    (nodup_countIn step block List.nodup_nil)

theorem Apart.foldl {buckets : List (Bucket Hash)} (apart : Apart buckets) (step : Int)
    (blocks : List Block) : Apart (blocks.foldl (Block.countByHash hash step) buckets) := by
  induction blocks generalizing buckets with
  | nil => exact apart
  | cons block rest inductionHypothesis =>
    exact inductionHypothesis (apart.countByHash hash step block)

theorem Apart.counted_eq {buckets : List (Bucket Hash)} (apart : Apart buckets)
    {bucket : Bucket Hash} (listed : bucket ∈ buckets) {tally : Tally}
    (member : tally ∈ bucket.tallies) :
    counted (bucket.hash, tally.sample.contents) buckets = tally.count := by
  -- no other bucket has this hash, and no other tally of the bucket these contents
  refine (sum_map_eq_of_nodup apart.hashes listed fun other different => if_neg different).trans ?_
  rw [if_pos rfl]
  refine (sum_map_eq_of_nodup (apart.samples bucket listed) member
    fun other different => if_neg different).trans ?_
  rw [if_pos rfl]

/-- All counts are zero if nothing was counted on balance. -/
theorem Apart.all_zero_iff {buckets : List (Bucket Hash)} (apart : Apart buckets) :
    (buckets.all fun bucket => bucket.tallies.all fun tally => tally.count == 0) = true ↔
      ∀ target, counted target buckets = 0 := by
  simp only [List.all_eq_true, beq_iff_eq]
  constructor
  · intro zeros target
    refine List.sum_eq_zero fun total member => ?_
    obtain ⟨bucket, listed, rfl⟩ := List.mem_map.mp member
    split
    · refine List.sum_eq_zero fun count member => ?_
      obtain ⟨tally, counted, rfl⟩ := List.mem_map.mp member
      rw [zeros bucket listed tally counted, ite_self]
    · rfl
  · intro balanced bucket listed tally member
    rw [← apart.counted_eq listed member, balanced]

/-- Lists of blocks count as equal if they have the same marks in some order. -/
theorem sameBlocksBy_iff_perm {left right : List Block} :
    sameBlocksBy hash left right = true ↔
      (left.map (mark hash)).Perm (right.map (mark hash)) := by
  classical
  have apart : Apart (right.foldl (countByHash hash (-1)) (left.foldl (countByHash hash 1) [])) :=
    ((Apart.nil Hash).foldl hash 1 left).foldl hash (-1) right
  rw [sameBlocksBy, apart.all_zero_iff, List.perm_iff_count]
  refine forall_congr' fun target => ?_
  -- what is left of a mark is how much more often it occurs on the left than on the right
  rw [counted_foldl, counted_foldl]
  show 0 + 1 * ((left.map (mark hash)).count target : Int) +
    -1 * ((right.map (mark hash)).count target : Int) = 0 ↔ _
  omega

omit [DecidableEq Hash] in
theorem mark_ordered (block : Block) : block.ordered.mark hash = block.mark hash := by
  rw [mark, mark, key_ordered, contents, contents, ordered_ordered]

end

end FlowGraph.Block
