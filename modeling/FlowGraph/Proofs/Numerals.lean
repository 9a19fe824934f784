/-
This file proves that written numbers are numerals. Whatever number it is, its
text is a numeral with digits and without a leading zero, and an integer of 64
bits is read back as itself. Of doubles nothing more is said here: their text
is read as a number, which may be a neighbour of the one that was written.
-/

import FlowGraph.Json.Token
import FlowGraph.Json.Numeral
import FlowGraph.Json.Writer
import Mathlib.Algebra.Ring.Int.Defs
import Mathlib.Algebra.Ring.Nat
import Mathlib.Data.Option.Basic

namespace FlowGraph

namespace Json.Numeral

/-! ### Digits -/

/-- The values of digits. -/
def values (digits : List Char) : List Nat := digits.map fun mark => mark.toNat - '0'.toNat

/-- Whether all marks are digits. -/
def AllDigits (marks : List Char) : Prop := ∀ mark ∈ marks, mark.isDigit = true

/-- Whether no digit comes first. -/
def EndsDigits (marks : List Char) : Prop := ∀ mark, marks.head? = some mark → mark.isDigit = false

theorem takeDigits_append {digits rest : List Char} (all : AllDigits digits)
    (ends : EndsDigits rest) : takeDigits (digits ++ rest) = (values digits, rest) := by
  have stops : rest.takeWhile Char.isDigit = [] ∧ rest.dropWhile Char.isDigit = rest := by
    cases rest with
    | nil => exact ⟨rfl, rfl⟩
    | cons mark others =>
      have stop : mark.isDigit = false := ends mark rfl
      rw [List.takeWhile_cons, List.dropWhile_cons, stop]
      exact ⟨rfl, rfl⟩
  rw [takeDigits, List.takeWhile_append_of_pos all, List.dropWhile_append_of_pos all, stops.1,
    stops.2, List.append_nil]
  rfl

theorem endsDigits_nil : EndsDigits [] := fun _ first => nomatch first

theorem takeDigits_of_allDigits {digits : List Char} (all : AllDigits digits) :
    takeDigits digits = (values digits, []) := by
  have taken := takeDigits_append all endsDigits_nil
  rwa [List.append_nil] at taken

theorem allDigits_toDigits (value : Nat) : AllDigits (Nat.toDigits 10 value) :=
  fun _ member => Nat.isDigit_of_mem_toDigits (by decide) (by decide) member

/-- Only zero is written with a zero in front. -/
theorem head?_toDigits {value : Nat} (zero : (Nat.toDigits 10 value).head? = some '0') :
    value = 0 := by
  induction value using Nat.strongRecOn with
  | ind value inductionHypothesis =>
    by_cases small : value < 10
    · rw [Nat.toDigits_of_lt_base small, List.head?_cons, Option.some.injEq] at zero
      exact Nat.digitChar_eq_zero.mp zero
    · obtain ⟨first, others, shape⟩ :=
        List.exists_cons_of_ne_nil (Nat.toDigits_ne_nil (n := value / 10) (b := 10))
      rw [Nat.toDigits_of_base_le (by decide) (Nat.le_of_not_lt small), shape] at zero
      have front := inductionHypothesis (value / 10) (by omega) (shape ▸ zero)
      omega

/-- Whether marks are digits as they may stand before a point. -/
structure Whole (marks : List Char) : Prop where
  digits : AllDigits marks
  nonempty : marks ≠ []
  leading : marks.head? = some '0' → marks.length = 1

theorem whole_toDigits (value : Nat) : Whole (Nat.toDigits 10 value) where
  digits := allDigits_toDigits value
  nonempty := Nat.toDigits_ne_nil
  leading zero := by
    rw [head?_toDigits zero, Nat.toDigits_zero]
    rfl

/-! ### Numerals -/

/-- The sign of a number as marks. -/
def signMarks (negative : Bool) : List Char := if negative then ['-'] else []

/-- The rest of a numeral after its sign. -/
def ofUnsigned? (negative : Bool) (marks : List Char) : Option Numeral := do
  let (whole, afterWhole) := takeDigits marks
  guard (whole ≠ [] ∧ (whole.head? = some 0 → whole.length = 1))
  let (fraction, afterFraction) ← fraction? afterWhole
  let exponent ← exponent? afterFraction
  return { negative, whole, fraction, exponent }

theorem ofMarks?_minus (marks : List Char) :
    ofMarks? ('-' :: marks) = ofUnsigned? true marks := rfl

theorem ofMarks?_of_ne_minus {marks : List Char} (plain : marks.head? ≠ some '-') :
    ofMarks? marks = ofUnsigned? false marks := by
  unfold ofMarks?
  split
  rename_i negative unsigned same
  split at same
  · exact absurd rfl plain
  · cases same
    rfl

theorem isDigit_ne_minus {mark : Char} (digit : mark.isDigit = true) : mark ≠ '-' := by
  rintro rfl
  revert digit
  decide

/-- A digit is zero only if its mark is. -/
theorem mark_eq_zero {mark : Char} (digit : mark.isDigit = true)
    (zero : mark.toNat - '0'.toNat = 0) : mark = '0' := by
  have bounds := Char.isDigit_iff_toNat.mp digit
  exact Char.toNat_inj.mp (by omega)

theorem ofUnsigned?_eq (negative : Bool) {whole rest after : List Char} (isWhole : Whole whole)
    (ends : EndsDigits rest) {fraction : List Nat} {exponent : Option Int}
    (fractionRead : fraction? rest = some (fraction, after))
    (exponentRead : exponent? after = some exponent) :
    ofUnsigned? negative (whole ++ rest) =
      some ⟨negative, values whole, fraction, exponent⟩ := by
  have fits : values whole ≠ [] ∧
      ((values whole).head? = some 0 → (values whole).length = 1) := by
    rw [values, List.length_map, List.head?_map]
    refine ⟨mt List.map_eq_nil_iff.mp isWhole.nonempty, fun zero => ?_⟩
    obtain ⟨first, leads, value⟩ := Option.map_eq_some_iff.mp zero
    have digit := isWhole.digits first (List.mem_of_head? leads)
    exact isWhole.leading (leads.trans (congrArg some (mark_eq_zero digit value)))
  rw [ofUnsigned?, takeDigits_append isWhole.digits ends]
  dsimp only
  rw [(Option.guard_eq_some' ()).mpr fits, fractionRead]
  dsimp only [Option.bind_eq_bind, Option.bind_some, Option.pure_def]
  rw [exponentRead]
  rfl

/-- A numeral is read part by part. -/
theorem ofMarks?_eq (negative : Bool) {whole rest after : List Char} (isWhole : Whole whole)
    (ends : EndsDigits rest) {fraction : List Nat} {exponent : Option Int}
    (fractionRead : fraction? rest = some (fraction, after))
    (exponentRead : exponent? after = some exponent) :
    ofMarks? (signMarks negative ++ (whole ++ rest)) =
      some ⟨negative, values whole, fraction, exponent⟩ := by
  have read := ofUnsigned?_eq negative isWhole ends fractionRead exponentRead
  cases negative with
  | true => exact read
  | false =>
    refine (ofMarks?_of_ne_minus fun minus => ?_).trans read
    obtain ⟨first, others, rfl⟩ := List.exists_cons_of_ne_nil isWhole.nonempty
    exact isDigit_ne_minus (isWhole.digits first List.mem_cons_self) (Option.some.inj minus)

theorem fraction?_point {digits rest : List Char} (all : AllDigits digits) (some : digits ≠ [])
    (ends : EndsDigits rest) :
    fraction? ('.' :: (digits ++ rest)) = .some (values digits, rest) := by
  obtain ⟨first, others, rfl⟩ := List.exists_cons_of_ne_nil some
  rw [fraction?, takeDigits_append all ends]
  rfl

theorem exists_exponent? {sign : Char} (signed : sign = '-' ∨ sign = '+') {digits : List Char}
    (all : AllDigits digits) (some : digits ≠ []) :
    ∃ exponent, exponent? ('e' :: sign :: digits) = .some (.some exponent) := by
  obtain ⟨first, others, rfl⟩ := List.exists_cons_of_ne_nil some
  have taken := takeDigits_of_allDigits all
  rcases signed with rfl | rfl
  · exact ⟨_, by simp only [exponent?, taken, values, List.map_cons, true_or, if_true]; rfl⟩
  · exact ⟨_, by simp only [exponent?, taken, values, List.map_cons, true_or, if_true]; rfl⟩

/-! ### Integers -/

/-- The numeral of an integer. -/
def ofInteger (value : Int) : Numeral :=
  ⟨decide (value < 0), values (Nat.toDigits 10 value.natAbs), [], none⟩

theorem toList_toString_integer (value : Int) :
    (toString value).toList =
      signMarks (decide (value < 0)) ++ (Nat.toDigits 10 value.natAbs ++ []) := by
  rw [List.append_nil]
  cases value with
  | ofNat size =>
    have sign : signMarks (decide (Int.ofNat size < 0)) = [] := by simp [signMarks]
    rw [sign]
    exact Nat.toList_repr
  | negSucc size =>
    have sign : signMarks (decide (Int.negSucc size < 0)) = ['-'] := by
      simp [signMarks, Int.negSucc_lt_zero]
    have written : toString (Int.negSucc size) = "-" ++ (size + 1).repr := rfl
    rw [sign, written, String.toList_append, Nat.toList_repr]
    rfl

theorem ofMarks?_integer (value : Int) :
    ofMarks? (toString value).toList = some (ofInteger value) := by
  rw [toList_toString_integer]
  exact ofMarks?_eq _ (whole_toDigits _) endsDigits_nil rfl rfl

theorem le_foldl_digits (digits : List Nat) (start : Nat) :
    start ≤ digits.foldl (fun total digit => total * 10 + digit) start := by
  induction digits generalizing start with
  | nil => exact Nat.le_refl _
  | cons digit rest inductionHypothesis =>
    exact Nat.le_trans (by omega) (inductionHypothesis (start * 10 + digit))

/-- Digits are taken as long as the number that they make up stays within 64 bits. -/
theorem absorb_eq {digits : List Nat} {significand taken : Nat}
    (small : digits.foldl (fun total digit => total * 10 + digit) significand ≤ significandLimit) :
    absorb significand taken digits =
      (digits.foldl (fun total digit => total * 10 + digit) significand,
        taken + digits.length) := by
  induction digits generalizing significand taken with
  | nil => rfl
  | cons digit rest inductionHypothesis =>
    rw [List.foldl_cons] at small ⊢
    rw [absorb, if_pos (Nat.le_trans (le_foldl_digits rest _) small), inductionHypothesis small,
      List.length_cons, Nat.add_assoc, Nat.add_comm 1]

theorem ofDigits_values_toDigits (value : Nat) :
    (values (Nat.toDigits 10 value)).foldl (fun total digit => total * 10 + digit) 0 = value := by
  have decimal := @Nat.ofDigitChars_ten_toDigits value
  rw [Nat.ofDigitChars_eq_foldl] at decimal
  rw [values, List.foldl_map]
  simpa only [Nat.mul_comm 10] using decimal

/-- An integer of 64 bits is read back, whether it is signed or not. -/
theorem number?_ofInteger {value : Int} (least : -2 ^ 63 ≤ value) (greatest : value < 2 ^ 64) :
    (ofInteger value).number? = some (.integer value) := by
  have digits := ofDigits_values_toDigits value.natAbs
  have small : (values (Nat.toDigits 10 value.natAbs)).foldl
      (fun total digit => total * 10 + digit) 0 ≤ significandLimit := by
    rw [digits, significandLimit, UInt64.size]
    omega
  have absorbed : absorb 0 0 (values (Nat.toDigits 10 value.natAbs)) = _ := absorb_eq small
  rw [digits, Nat.zero_add] at absorbed
  rw [number?, ofInteger]
  dsimp only
  rw [absorbed]
  dsimp only
  rw [Nat.sub_self, if_pos ⟨rfl, rfl, rfl⟩]
  by_cases negative : value < 0
  · have bounds : 0 < value.natAbs ∧ value.natAbs ≤ UInt64.size / 2 := by
      rw [UInt64.size]
      omega
    have back : -(value.natAbs : Int) = value := by omega
    rw [decide_eq_true negative, Bool.not_true, if_neg Bool.false_ne_true, if_pos bounds, back]
  · have back : (value.natAbs : Int) = value := by omega
    rw [decide_eq_false negative, Bool.not_false, if_pos rfl, back]

/-! ### Digits with a point -/

/-- Whether marks are a numeral, with or without a minus sign before them. -/
def IsUnsigned (marks : List Char) : Prop :=
  ∀ negative, ∃ numeral, ofMarks? (signMarks negative ++ marks) = some numeral

theorem isUnsigned_point {whole digits : List Char} (isWhole : Whole whole)
    (all : AllDigits digits) (some : digits ≠ []) : IsUnsigned (whole ++ '.' :: digits) := by
  have fraction := fraction?_point all some endsDigits_nil
  have ends : EndsDigits ('.' :: digits) := fun mark first => by
    cases first
    rfl
  rw [List.append_nil] at fraction
  exact fun negative => ⟨_, ofMarks?_eq negative isWhole ends fraction rfl⟩

theorem endsDigits_exponent (marks : List Char) : EndsDigits ('e' :: marks) := fun mark first => by
  cases first
  rfl

theorem isUnsigned_exponent {whole digits : List Char} {sign : Char} (isWhole : Whole whole)
    (signed : sign = '-' ∨ sign = '+') (all : AllDigits digits) (some : digits ≠ []) :
    IsUnsigned (whole ++ 'e' :: sign :: digits) := by
  obtain ⟨exponent, read⟩ := exists_exponent? signed all some
  exact fun negative => ⟨_, ofMarks?_eq negative isWhole (endsDigits_exponent _) rfl read⟩

theorem isUnsigned_point_exponent {whole fraction digits : List Char} {sign : Char}
    (isWhole : Whole whole) (fractionAll : AllDigits fraction) (fractionSome : fraction ≠ [])
    (signed : sign = '-' ∨ sign = '+') (all : AllDigits digits) (some : digits ≠ []) :
    IsUnsigned (whole ++ '.' :: (fraction ++ 'e' :: sign :: digits)) := by
  obtain ⟨exponent, read⟩ := exists_exponent? signed all some
  have fractionRead := fraction?_point fractionAll fractionSome
    (endsDigits_exponent (sign :: digits))
  have ends : EndsDigits ('.' :: (fraction ++ 'e' :: sign :: digits)) := fun mark first => by
    cases first
    rfl
  exact fun negative => ⟨_, ofMarks?_eq negative isWhole ends fractionRead read⟩

theorem whole_singleton {mark : Char} (digit : mark.isDigit = true) : Whole [mark] where
  digits := List.forall_mem_singleton.mpr digit
  nonempty := List.cons_ne_nil _ _
  leading _ := rfl

end Json.Numeral

/-! ### Doubles -/

namespace Binary64

open Json Json.Numeral

theorem significand_pos {word : Nat} (nonzero : word ≠ 0) : 0 < significand word := by
  have positive : 0 < binade := by decide
  rw [significand]
  split <;> omega

/-- No decimal without digits identifies a double other than zero. -/
theorem ne_zero_of_identifies {word digits : Nat} {power : Int} (nonzero : word ≠ 0)
    (identified : identifies word digits power = true) : digits ≠ 0 := by
  rintro rfl
  have positive := significand_pos nonzero
  have unit : 0 < Nat.pow 10 (-power).toNat <<< (exponent word - 2).toNat := by
    rw [Nat.shiftLeft_eq]
    exact Nat.mul_pos (Nat.pow_pos (by decide)) (Nat.pow_pos (by decide))
  have above (below : Nat) (few : below ≤ 2) :
      0 < (4 * significand word - below) *
        (Nat.pow 10 (-power).toNat <<< (exponent word - 2).toNat) :=
    Nat.mul_pos (by omega) unit
  have few : (if significand word = binade ∧ exponent word > -1074 then 1 else 2) ≤ 2 := by
    split <;> decide
  rw [identifies, Nat.zero_mul, Nat.zero_shiftLeft] at identified
  split at identified
  · exact absurd (of_decide_eq_true identified).1 (Nat.not_le_of_lt (above _ few))
  · exact absurd (of_decide_eq_true identified).1 (Nat.not_lt_zero _)

theorem ne_zero_of_identifiedWithin {word : Nat} {scale : Int} {count digits : Nat} {power : Int}
    (nonzero : word ≠ 0) (found : identifiedWithin word scale count = some (digits, power)) :
    digits ≠ 0 := by
  unfold identifiedWithin at found
  dsimp only at found
  split at found
  · rename_i floor _
    split at found
    · cases found
      exact ne_zero_of_identifies nonzero floor
    · cases found
      exact Nat.succ_ne_zero _
  · rename_i floor _
    cases found
    exact ne_zero_of_identifies nonzero floor
  · cases found
    exact Nat.succ_ne_zero _
  · cases found

theorem stripZeros_ne_zero {digits : Nat} (nonzero : digits ≠ 0) (fuel : Nat) (power : Int) :
    (stripZeros fuel digits power).1 ≠ 0 := by
  induction fuel generalizing digits power with
  | zero => exact nonzero
  | succ fuel inductionHypothesis =>
    rw [stripZeros]
    split
    · rename_i trailing
      exact inductionHypothesis (by omega) _
    · exact nonzero

theorem stripZeros_zero (fuel : Nat) (power : Int) : stripZeros fuel 0 power = (0, power) := by
  cases fuel with
  | zero => rfl
  | succ fuel => rw [stripZeros, if_neg fun both => both.2 rfl]

/-- The shortest digits of a double other than zero denote something, or stand for themselves. -/
theorem shortest_plain {word : Nat} (nonzero : word ≠ 0) :
    (shortest word).1 ≠ 0 ∨ (shortest word).2 = 0 := by
  unfold shortest
  dsimp only
  cases found : (List.range 17).findSome? fun extra =>
      identifiedWithin word (decimalScale word) (extra + 1) with
  | some decimal =>
    obtain ⟨extra, _, identified⟩ := List.exists_of_findSome?_eq_some found
    exact Or.inl (stripZeros_ne_zero (ne_zero_of_identifiedWithin nonzero identified) _ _)
  | none =>
    rw [Option.getD_none]
    dsimp only
    by_cases none : (quotient word).1 / (quotient word).2 = 0
    · rw [none, stripZeros_zero]
      exact Or.inr rfl
    · exact Or.inl (stripZeros_ne_zero none _ _)

theorem allDigits_append {first second : List Char} (firstAll : AllDigits first)
    (secondAll : AllDigits second) : AllDigits (first ++ second) :=
  List.forall_mem_append.mpr ⟨firstAll, secondAll⟩

theorem allDigits_zeros (count : Nat) : AllDigits (List.replicate count '0') := by
  intro mark member
  rw [List.eq_of_mem_replicate member]
  rfl

/-- The digits before the point, filled up with zeros: there is no zero in front, because then the
digits would denote zero, and zero has no power of ten. -/
theorem whole_padded {digits count : Nat} {power : Int} (plain : digits ≠ 0 ∨ power = 0)
    (enough : (count : Int) = (Nat.toDigits 10 digits).length + power) (positive : 0 < count)
    (zeros : List Char) (all : AllDigits zeros) :
    Whole ((Nat.toDigits 10 digits ++ zeros).take count) where
  digits := fun mark member =>
    allDigits_append (allDigits_toDigits digits) all mark (List.mem_of_mem_take member)
  nonempty := by
    rw [Ne, List.take_eq_nil_iff, not_or]
    exact ⟨Nat.ne_of_gt positive, List.append_ne_nil_of_left_ne_nil Nat.toDigits_ne_nil _⟩
  leading zero := by
    obtain ⟨first, others, shape⟩ :=
      List.exists_cons_of_ne_nil (Nat.toDigits_ne_nil (n := digits) (b := 10))
    obtain ⟨further, rfl⟩ := Nat.exists_eq_succ_of_ne_zero (Nat.ne_of_gt positive)
    rw [shape, List.cons_append, List.take_succ_cons] at zero
    have none : digits = 0 := head?_toDigits (shape ▸ zero)
    have noPower := plain.resolve_left (not_not_intro none)
    rw [none, Nat.toDigits_zero, List.length_singleton] at enough
    have single : further = 0 := by omega
    rw [single, none, Nat.toDigits_zero]
    rfl

theorem isUnsigned_fractional {figures : List Char} (all : AllDigits figures)
    (some : figures ≠ []) (zeros : Nat) :
    IsUnsigned ("0." ++ String.ofList (List.replicate zeros '0' ++ figures)).toList := by
  have fraction := allDigits_append (allDigits_zeros zeros) all
  have someFraction := List.append_ne_nil_of_right_ne_nil (List.replicate zeros '0') some
  have point := isUnsigned_point (whole_singleton rfl : Whole ['0']) fraction someFraction
  have zero : "0.".toList = ['0', '.'] := rfl
  rwa [String.toList_append, zero, String.toList_ofList]

/-- A point inside of digits, or a zero after it if there are no more digits. -/
theorem isUnsigned_positional {figures : List Char} {count : Nat} (all : AllDigits figures)
    (isWhole : Whole (figures.take count)) :
    IsUnsigned (figures.take count ++
      '.' :: if figures.length ≤ count then ['0'] else figures.drop count) := by
  refine isUnsigned_point isWhole ?_ ?_
  · split
    · exact List.forall_mem_singleton.mpr rfl
    · exact fun mark member => all mark (List.mem_of_mem_drop member)
  · split
    · exact List.cons_ne_nil _ _
    · rename_i longer
      rw [Ne, List.drop_eq_nil_iff]
      exact longer

theorem exists_exponentMarks (exponent : Int) : ∃ (sign : Char) (digits : List Char),
    (sign = '-' ∨ sign = '+') ∧ AllDigits digits ∧ digits ≠ [] ∧
      (if exponent < 0 then "e-" else "e+").toList ++ (toString exponent.natAbs).toList =
        'e' :: sign :: digits := by
  refine ⟨if exponent < 0 then '-' else '+', Nat.toDigits 10 exponent.natAbs, ?_,
    allDigits_toDigits _, Nat.toDigits_ne_nil, ?_⟩
  · split
    · exact Or.inl rfl
    · exact Or.inr rfl
  · rw [Nat.toString_eq_repr, Nat.toList_repr]
    split <;> rfl

/-- Digits and a power of ten are written as a numeral. -/
theorem isUnsigned_layout {digits : Nat} {power : Int} (plain : digits ≠ 0 ∨ power = 0) :
    IsUnsigned (layout digits power).toList := by
  have figures := allDigits_toDigits digits
  have someFigures := Nat.toDigits_ne_nil (n := digits) (b := 10)
  unfold layout
  dsimp only
  split
  · split
    · exact isUnsigned_fractional figures someFigures _
    · rw [String.toList_ofList]
      exact isUnsigned_positional (allDigits_append figures (allDigits_zeros _))
        (whole_padded plain (by omega) (Nat.succ_pos _) _ (allDigits_zeros _))
  · obtain ⟨sign, size, signed, sizeAll, someSize, shape⟩ :=
      exists_exponentMarks ((Nat.toDigits 10 digits).length - 1 + power)
    rw [String.toList_append, String.toList_append, String.toList_ofList, List.append_assoc, shape]
    match Nat.toDigits 10 digits, figures, someFigures with
    | [], _, nonempty => exact absurd rfl nonempty
    | [first], all, _ =>
      exact isUnsigned_exponent (whole_singleton (all first List.mem_cons_self)) signed sizeAll
        someSize
    | first :: second :: rest, all, _ =>
      rw [AllDigits, List.forall_mem_cons] at all
      have marks := isUnsigned_point_exponent (whole_singleton all.1) all.2
        (List.cons_ne_nil second rest) signed sizeAll someSize
      exact marks

/-- Every double is written as a numeral. -/
theorem exists_ofMarks?_toText (number : Binary64) :
    ∃ numeral, ofMarks? number.toText.toList = some numeral := by
  have magnitude : IsUnsigned (if number.word = 0 then "0.0"
      else layout (shortest number.word).1 (shortest number.word).2).toList := by
    split
    · have zero : AllDigits ['0'] := List.forall_mem_singleton.mpr rfl
      have marks := isUnsigned_point (whole_singleton rfl : Whole ['0']) zero
        (List.cons_ne_nil '0' [])
      exact marks
    · rename_i nonzero
      exact isUnsigned_layout (shortest_plain nonzero)
  have written : number.toText.toList = signMarks number.negative ++ (if number.word = 0 then "0.0"
      else layout (shortest number.word).1 (shortest number.word).2).toList := by
    unfold toText
    dsimp only
    cases number.negative with
    | true => rw [if_pos rfl, String.toList_append]; rfl
    | false => rw [if_neg Bool.false_ne_true]; rfl
  rw [written]
  exact magnitude number.negative

end Binary64

/-- Every number is written as a numeral. -/
theorem Json.Number.exists_ofMarks?_toText (number : Json.Number) :
    ∃ numeral, Json.Numeral.ofMarks? number.toText.toList = some numeral := by
  cases number with
  | integer value => exact ⟨_, Json.Numeral.ofMarks?_integer value⟩
  | real value => exact value.exists_ofMarks?_toText

namespace Json.Numeral

/-! ### Marks of numerals -/

/-- Whether all marks may stand in a numeral. -/
def AllMarks (marks : List Char) : Prop := ∀ mark ∈ marks, Scanner.isNumeralMark mark = true

theorem isNumeralMark_of_isDigit {mark : Char} (digit : mark.isDigit = true) :
    Scanner.isNumeralMark mark = true := by
  simp [Scanner.isNumeralMark, digit]

/-- If what follows the digits is made of marks, then so is the whole. -/
theorem AllMarks.of_dropWhile {marks : List Char} (rest : AllMarks (marks.dropWhile Char.isDigit)) :
    AllMarks marks := by
  rw [← List.takeWhile_append_dropWhile (p := Char.isDigit) (l := marks)]
  refine List.forall_mem_append.mpr ⟨fun mark member => ?_, rest⟩
  exact isNumeralMark_of_isDigit (List.all_eq_true.mp List.all_takeWhile mark member)

theorem allMarks_of_takeDigits {marks : List Char} {digits : List Nat}
    (taken : takeDigits marks = (digits, [])) : AllMarks marks := by
  refine AllMarks.of_dropWhile fun mark member => ?_
  rw [(Prod.mk.inj taken).2] at member
  exact absurd member List.not_mem_nil

theorem allMarks_of_exponent? {marks : List Char} {exponent : Option Int}
    (read : exponent? marks = some exponent) : AllMarks marks := by
  cases marks with
  | nil => exact fun mark member => absurd member List.not_mem_nil
  | cons first rest =>
    have letter : first = 'e' ∨ first = 'E' := by
      refine Decidable.byContradiction fun other => ?_
      simp only [exponent?, if_neg other, reduceCtorEq] at read
    have letterMark : Scanner.isNumeralMark first = true := by
      rcases letter with rfl | rfl <;> rfl
    refine List.forall_mem_cons.mpr ⟨letterMark, ?_⟩
    by_cases minus : ∃ after, rest = '-' :: after
    · obtain ⟨after, rfl⟩ := minus
      rw [exponent?, if_pos letter] at read
      split at read
      · rename_i taken
        exact List.forall_mem_cons.mpr ⟨rfl, allMarks_of_takeDigits taken⟩
      · cases read
    by_cases plus : ∃ after, rest = '+' :: after
    · obtain ⟨after, rfl⟩ := plus
      rw [exponent?, if_pos letter] at read
      split at read
      · rename_i taken
        exact List.forall_mem_cons.mpr ⟨rfl, allMarks_of_takeDigits taken⟩
      · cases read
    · rw [exponent?, if_pos letter] at read
      · split at read
        · rename_i taken
          exact allMarks_of_takeDigits taken
        · cases read
      · exact fun after same => minus ⟨after, same⟩
      · exact fun after same => plus ⟨after, same⟩

theorem AllMarks.of_fraction? {marks after : List Char} {fraction : List Nat}
    (read : fraction? marks = some (fraction, after)) (rest : AllMarks after) :
    AllMarks marks := by
  unfold fraction? at read
  split at read
  · split at read
    · cases read
    · rename_i taken _
      rw [Option.some.injEq] at read
      refine List.forall_mem_cons.mpr ⟨rfl, AllMarks.of_dropWhile ?_⟩
      rw [(Prod.mk.inj read).2]
      exact rest
  · cases read
    exact rest

theorem marks_of_ofUnsigned? {negative : Bool} {marks : List Char} {numeral : Numeral}
    (read : ofUnsigned? negative marks = some numeral) :
    AllMarks marks ∧ ∃ first rest, marks = first :: rest ∧ first.isDigit = true := by
  unfold ofUnsigned? at read
  simp only [takeDigits, Option.bind_eq_bind, Option.bind_eq_some_iff, Prod.exists] at read
  obtain ⟨_, guarded, fraction, after, fractionRead, exponent, exponentRead, _⟩ := read
  refine ⟨AllMarks.of_dropWhile (AllMarks.of_fraction? fractionRead
    (allMarks_of_exponent? exponentRead)), ?_⟩
  have nonempty : marks.takeWhile Char.isDigit ≠ [] :=
    mt List.map_eq_nil_iff.mpr ((Option.guard_eq_some' _).mp guarded).1
  cases marks with
  | nil => exact absurd rfl nonempty
  | cons first rest =>
    refine ⟨first, rest, rfl, ?_⟩
    cases digit : first.isDigit with
    | true => rfl
    | false =>
      rw [List.takeWhile_cons, digit] at nonempty
      exact absurd rfl nonempty

/-- A numeral that is read begins with a digit or a minus sign, and all of it may stand in a
numeral. -/
theorem marks_of_ofMarks? {marks : List Char} {numeral : Numeral}
    (read : ofMarks? marks = some numeral) :
    AllMarks marks ∧
      ∃ first rest, marks = first :: rest ∧ (first.isDigit || first == '-') = true := by
  by_cases minus : marks.head? = some '-'
  · obtain ⟨rest, rfl⟩ : ∃ rest, marks = '-' :: rest := by
      cases marks with
      | nil => cases minus
      | cons first rest =>
        rw [List.head?_cons, Option.some.injEq] at minus
        exact ⟨rest, by rw [minus]⟩
    rw [ofMarks?_minus] at read
    exact ⟨List.forall_mem_cons.mpr ⟨rfl, (marks_of_ofUnsigned? read).1⟩, '-', rest, rfl, rfl⟩
  · rw [ofMarks?_of_ne_minus minus] at read
    obtain ⟨all, first, rest, rfl, digit⟩ := marks_of_ofUnsigned? read
    exact ⟨all, first, rest, rfl, by rw [digit, Bool.true_or]⟩

end Json.Numeral

end FlowGraph
