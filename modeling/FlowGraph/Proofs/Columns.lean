/-
This file proves that columns give back the rows they were put together from.
A value up to the bound that a width was fitted to is stored as it is, as long
as a machine word can hold the bound, and the part of a column between two
neighbouring offsets is one row.
-/

import FlowGraph.Compact.Build
import Mathlib.Algebra.Ring.Int.Defs
import Mathlib.Algebra.Ring.Nat

namespace FlowGraph

/-! ### Widths -/

namespace Width

theorem fitUnsigned_cases (value : Nat) :
    value ≤ (fitUnsigned value).unsignedMax ∨ (fitUnsigned value).unsignedMax = 2 ^ 64 - 1 := by
  unfold fitUnsigned
  cases found : all.find? fun width => value ≤ width.unsignedMax with
  | none => exact Or.inr rfl
  | some width =>
    have fits := List.find?_some found
    exact Or.inl (of_decide_eq_true fits)

theorem le_unsignedMax_fitUnsigned {value : Nat} (word : value < 2 ^ 64) :
    value ≤ (fitUnsigned value).unsignedMax := by
  rcases fitUnsigned_cases value with fits | greatest
  · exact fits
  · rw [greatest]
    exact Nat.le_sub_one_of_lt word

/-- The greatest value of the width that is fitted to one more than a count is free. -/
theorem lt_unsignedMax_fitUnsigned {number count : Nat} (inside : number < count)
    (word : count < 2 ^ 64) : number < (fitUnsigned (count + 1)).unsignedMax := by
  rcases fitUnsigned_cases (count + 1) with fits | greatest <;> omega

theorem mem_range_fitSigned {value : Int} (least : -2 ^ 63 ≤ value) (greatest : value < 2 ^ 63) :
    (fitSigned value).signedMin ≤ value ∧ value ≤ (fitSigned value).signedMax := by
  unfold fitSigned
  cases found : all.find? fun width => width.signedMin ≤ value ∧ value ≤ width.signedMax with
  | none => exact ⟨least, Int.le_sub_one_of_lt greatest⟩
  | some width =>
    have fits := List.find?_some found
    exact of_decide_eq_true fits

theorem signedMin_le_neg_one (width : Width) : width.signedMin ≤ -1 := by
  cases width <;> decide

end Width

/-! ### Arrays -/

namespace UnsignedArray

theorem elements_ofWidth {width : Width} {values : List Nat}
    (fits : ∀ value ∈ values, value ≤ width.unsignedMax) :
    (ofWidth width values).elements = values := by
  refine (List.map_congr_left fun value member => ?_).trans (List.map_id' values)
  exact Nat.min_eq_left (fits value member)

theorem elements_fitting {greatest : Nat} {values : List Nat} (word : greatest < 2 ^ 64)
    (fits : ∀ value ∈ values, value ≤ greatest) : (fitting greatest values).elements = values :=
  elements_ofWidth fun value member =>
    Nat.le_trans (fits value member) (Width.le_unsignedMax_fitUnsigned word)

@[simp]
theorem size_ofWidth (width : Width) (values : List Nat) :
    (ofWidth width values).size = values.length := List.length_map _

@[simp]
theorem size_fitting (greatest : Nat) (values : List Nat) :
    (fitting greatest values).size = values.length := List.length_map _

end UnsignedArray

namespace SignedArray

/-- Addresses and the mark of a missing one are stored as they are. -/
theorem elements_fitting {values : List Int}
    (fits : ∀ value ∈ values, -1 ≤ value ∧ value < 2 ^ 63) :
    (fitting (values.max?.getD 0) values).elements = values := by
  refine (List.map_congr_left fun value member => ?_).trans (List.map_id' values)
  cases greatest : values.max? with
  | none => exact (List.ne_nil_of_mem member (List.max?_eq_none_iff.mp greatest)).elim
  | some most =>
    obtain ⟨most_mem, most_le⟩ := List.max?_eq_some_iff.mp greatest
    obtain ⟨least, bound⟩ := fits most most_mem
    have small : -2 ^ 63 ≤ most := by omega
    have range := Width.mem_range_fitSigned small bound
    have low := (Width.fitSigned most).signedMin_le_neg_one
    have high := most_le value member
    have := (fits value member).1
    show max _ (min value _) = value
    rw [Option.getD_some, Int.min_eq_left (by omega), Int.max_eq_right (by omega)]

end SignedArray

/-! ### Offsets -/

namespace Compact

@[simp]
theorem length_offsetsOf (start : Nat) (lengths : List Nat) :
    (offsetsOf start lengths).length = lengths.length + 1 := by
  induction lengths generalizing start with
  | nil => rfl
  | cons length rest inductionHypothesis =>
    rw [offsetsOf, List.length_cons, inductionHypothesis, List.length_cons]

theorem getElem?_offsetsOf (start : Nat) {lengths : List Nat} {number : Nat}
    (inside : number ≤ lengths.length) :
    (offsetsOf start lengths)[number]? = some (start + (lengths.take number).sum) := by
  induction lengths generalizing start number with
  | nil =>
    obtain rfl := Nat.le_zero.mp inside
    rfl
  | cons length rest inductionHypothesis =>
    cases number with
    | zero => rfl
    | succ number =>
      rw [offsetsOf, List.getElem?_cons_succ, inductionHypothesis _ (Nat.le_of_succ_le_succ inside),
        List.take_succ_cons, List.sum_cons, Nat.add_assoc]

theorem sum_take_le (lengths : List Nat) (number : Nat) :
    (lengths.take number).sum ≤ lengths.sum := by
  calc (lengths.take number).sum
      ≤ (lengths.take number).sum + (lengths.drop number).sum := Nat.le_add_right _ _
    _ = lengths.sum := by rw [← List.sum_append, List.take_append_drop]

theorem le_of_mem_offsetsOf {start offset : Nat} {lengths : List Nat}
    (member : offset ∈ offsetsOf start lengths) : offset ≤ start + lengths.sum := by
  obtain ⟨number, found⟩ := List.mem_iff_getElem?.mp member
  have inside : number ≤ lengths.length := by
    have := (List.getElem?_eq_some_iff.mp found).1
    rw [length_offsetsOf] at this
    exact Nat.le_of_lt_succ this
  rw [getElem?_offsetsOf start inside, Option.some.injEq] at found
  rw [← found]
  exact Nat.add_le_add_left (sum_take_le lengths number) start

/-- Offsets are stored as they are. -/
theorem elements_fitting_offsetsOf {greatest : Nat} {lengths : List Nat} (word : greatest < 2 ^ 64)
    (sum : lengths.sum = greatest) :
    (UnsignedArray.fitting greatest (offsetsOf 0 lengths)).elements = offsetsOf 0 lengths := by
  refine UnsignedArray.elements_fitting word fun offset member => ?_
  rw [← sum, ← Nat.zero_add lengths.sum]
  exact le_of_mem_offsetsOf member

/-! ### Rows -/

/-- The part of a column that belongs to a row. -/
theorem sliceOf_flatten {Content : Type} {rows : List (List Content)} {number : Nat}
    {row : List Content} (found : rows[number]? = some row) :
    sliceOf rows.flatten ((rows.map List.length).take number).sum
      ((rows.map List.length).take (number + 1)).sum = row := by
  obtain ⟨inside, rfl⟩ := List.getElem?_eq_some_iff.mp found
  have split : rows.flatten =
      (rows.take number).flatten ++ (rows[number] ++ (rows.drop (number + 1)).flatten) := by
    rw [← List.flatten_cons, ← List.drop_eq_getElem_cons inside, ← List.flatten_append,
      List.take_append_drop]
  have start : ((rows.map List.length).take number).sum = (rows.take number).flatten.length := by
    rw [List.length_flatten, List.map_take]
  have stop : ((rows.map List.length).take (number + 1)).sum =
      (rows.take number).flatten.length + rows[number].length := by
    rw [← List.map_take, List.take_succ_eq_append_getElem inside, List.map_append, List.sum_append,
      ← List.length_flatten]
    simp only [List.map_cons, List.map_nil, List.sum_cons, List.sum_nil, Nat.add_zero]
  rw [start, stop, split, sliceOf, if_pos, List.drop_left, Nat.add_sub_cancel_left, List.take_left]
  simp only [List.length_append]
  omega

/-- An offset is the length of all rows before it. -/
theorem get?_fitting_offsetsOf {greatest : Nat} {lengths : List Nat} (word : greatest < 2 ^ 64)
    (sum : lengths.sum = greatest) {number : Nat} (inside : number ≤ lengths.length) :
    (UnsignedArray.fitting greatest (offsetsOf 0 lengths)).get? number =
      some (lengths.take number).sum := by
  rw [UnsignedArray.get?, elements_fitting_offsetsOf word sum, getElem?_offsetsOf 0 inside,
    Nat.zero_add]

/-- Where a row begins. -/
theorem range_fst_fitting {greatest : Nat} {lengths : List Nat} (word : greatest < 2 ^ 64)
    (sum : lengths.sum = greatest) {number : Nat} (inside : number ≤ lengths.length) :
    (range (.fitting greatest (offsetsOf 0 lengths)) number).1 = (lengths.take number).sum := by
  rw [range, get?_fitting_offsetsOf word sum inside, Option.getD_some]

/-- Where a row ends. -/
theorem range_snd_fitting {greatest : Nat} {lengths : List Nat} (word : greatest < 2 ^ 64)
    (sum : lengths.sum = greatest) {number : Nat} (inside : number < lengths.length) :
    (range (.fitting greatest (offsetsOf 0 lengths)) number).2 = (lengths.take (number + 1)).sum := by
  rw [range, get?_fitting_offsetsOf word sum inside, Option.getD_some]

/-- What the offsets of a column cut out of it for a row. -/
theorem slice_column {Item Content : Type} {items : List Item} {part : Item → List Content}
    {greatest : Nat} (word : greatest < 2 ^ 64) (sum : (items.flatMap part).length = greatest)
    {number : Nat} {item : Item} (found : items[number]? = some item) :
    let bounds := range (.fitting greatest (offsetsOf 0 (items.map fun item => (part item).length)))
      number
    sliceOf (items.flatMap part) bounds.1 bounds.2 = part item := by
  have inside := (List.getElem?_eq_some_iff.mp found).1
  have partFound : (items.map part)[number]? = some (part item) := by
    rw [List.getElem?_map, found, Option.map_some]
  have cut := sliceOf_flatten partFound
  rw [List.map_map] at cut
  rw [List.length_flatMap] at sum
  dsimp only
  rw [range_fst_fitting word sum (by rw [List.length_map]; exact Nat.le_of_lt inside),
    range_snd_fitting word sum (by rwa [List.length_map])]
  exact cut

/-- The parts of all rows make up the column. -/
theorem flatMap_range {Item Content : Type} {items : List Item} {part : Item → List Content}
    {read : Nat → List Content}
    (each : ∀ {number : Nat} {item : Item}, items[number]? = some item → read number = part item) :
    (List.range items.length).flatMap read = items.flatMap part := by
  have same : (List.range items.length).map read = items.map part := by
    refine List.ext_getElem (by simp) fun number first second => ?_
    rw [List.length_map] at second
    rw [List.getElem_map, List.getElem_map, List.getElem_range]
    exact each (List.getElem?_eq_getElem second)
  rw [List.flatMap_def, same, ← List.flatMap_def]

/-! ### Offsets that tile a column -/

/-- Whether the parts of a number of rows lie in a column of a length one behind the other, from
its beginning to its end. -/
structure Tiles (offsets : UnsignedArray) (rows length : Nat) : Prop where
  starts : (range offsets 0).1 = 0
  ordered : ∀ number < rows, (range offsets number).1 ≤ (range offsets number).2
  meets : ∀ number < rows, (range offsets number).2 = (range offsets (number + 1)).1
  ends : (range offsets rows).1 = length

theorem tiles_fitting_offsetsOf {greatest : Nat} {lengths : List Nat} (word : greatest < 2 ^ 64)
    (sum : lengths.sum = greatest) :
    Tiles (.fitting greatest (offsetsOf 0 lengths)) lengths.length greatest where
  starts := range_fst_fitting word sum (Nat.zero_le _)
  ordered number inside := by
    have longer : (lengths.take (number + 1)).take number = lengths.take number := by
      rw [List.take_take, Nat.min_eq_left (Nat.le_succ number)]
    rw [range_fst_fitting word sum (Nat.le_of_lt inside), range_snd_fitting word sum inside,
      ← longer]
    exact sum_take_le _ number
  meets number inside := by
    rw [range_snd_fitting word sum inside, range_fst_fitting word sum inside]
  ends := by
    rw [range_fst_fitting word sum (Nat.le_refl _), List.take_length, sum]

end Compact

end FlowGraph
