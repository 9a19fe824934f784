/-
This file says which operands are immediates and how large they are, not by reading
them but by what they are spelled from: perhaps a minus sign, the mark of a base and
at least one digit of it, the first digit counting most. In small letters every
immediate is read as the number that it spells and nothing else is read, so that a
spelling has no second size. Sizes are compared as words of 128 bits; a size that
does not fit into one is still above every threshold, which has 64 bits. Hence an
operand is hidden exactly if it is an immediate above the threshold, however many
digits it has.
-/

import FlowGraph.Proofs.SmallLetters
import FlowGraph.Proofs.Words
import Mathlib.Data.Nat.Digits.Defs

namespace FlowGraph

namespace Text

variable {base digit size : Nat} {character : Char} {text : List Char} {digits : List Nat}

/-! ### Digits -/

theorem toNat_digitChar : ∀ digit < 16,
    (Nat.digitChar digit).toNat = if digit < 10 then 48 + digit else 87 + digit := by
  decide

/-- The first run of capital letters. -/
theorem not_upper_of_small (small : isCapital character = false) :
    ¬ ('A' ≤ character ∧ character ≤ 'Z') := by
  rintro ⟨least, greatest⟩
  obtain ⟨others, table, _⟩ := capitalRuns_ascii
  have none := (isCapitalCode_eq_false_iff.mp small).2 ⟨0x41, 0x5a, 1, 0x61⟩
    (table ▸ List.mem_cons_self)
  exact Option.some_ne_none _
    ((CaseRun.small?_eq_some_iff.mpr ⟨⟨least, greatest, Nat.mod_one _⟩, rfl⟩).symm.trans none)

/-- Without capital letters the digits of a base are read from their characters. -/
theorem baseDigit?_eq_some_iff (few : base ≤ 16) (noUpper : ¬ ('A' ≤ character ∧ character ≤ 'Z')) :
    baseDigit? base character = some digit ↔ digit < base ∧ Nat.digitChar digit = character := by
  rw [baseDigit?, Option.filter_eq_some_iff, decide_eq_true_iff, and_comm]
  refine and_congr_right fun within => ?_
  have code := toNat_digitChar digit (Nat.lt_of_lt_of_le within few)
  rw [← Char.toNat_inj, code, digitValue?, if_neg noUpper]
  by_cases numeral : '0' ≤ character ∧ character ≤ '9'
  · have bounds : 48 ≤ character.toNat ∧ character.toNat ≤ 57 := numeral
    rw [if_pos numeral, Option.some.injEq]
    show character.toNat - 48 = digit ↔ _
    split <;> omega
  · have outside : ¬ (48 ≤ character.toNat ∧ character.toNat ≤ 57) := numeral
    rw [if_neg numeral]
    by_cases letter : 'a' ≤ character ∧ character ≤ 'z'
    · have bounds : 97 ≤ character.toNat ∧ character.toNat ≤ 122 := letter
      rw [if_pos letter, Option.some.injEq]
      show character.toNat - 97 + 10 = digit ↔ _
      split <;> omega
    · have beyond : ¬ (97 ≤ character.toNat ∧ character.toNat ≤ 122) := letter
      rw [if_neg letter]
      constructor
      · rintro ⟨⟩
      · intro same
        split at same <;> omega

theorem mapM_baseDigit?_eq_some_iff (few : base ≤ 16)
    (noUpper : ∀ character ∈ text, ¬ ('A' ≤ character ∧ character ≤ 'Z')) :
    text.mapM (baseDigit? base) = some digits ↔
      (∀ digit ∈ digits, digit < base) ∧ digits.map Nat.digitChar = text := by
  induction text generalizing digits with
  | nil =>
    rw [List.mapM_nil, List.map_eq_nil_iff]
    constructor
    · rintro ⟨⟩
      exact ⟨List.forall_mem_nil _, rfl⟩
    · rintro ⟨_, rfl⟩
      rfl
  | cons character rest inductionHypothesis =>
    rw [List.forall_mem_cons] at noUpper
    rw [List.mapM_cons]
    simp only [Option.bind_eq_bind, Option.bind_eq_some_iff, Option.pure_def, Option.some.injEq,
      baseDigit?_eq_some_iff few noUpper.1, inductionHypothesis noUpper.2]
    constructor
    · rintro ⟨digit, ⟨within, rfl⟩, others, ⟨allWithin, rfl⟩, rfl⟩
      exact ⟨List.forall_mem_cons.mpr ⟨within, allWithin⟩, rfl⟩
    · rintro ⟨within, spelled⟩
      cases digits with
      | nil => cases spelled
      | cons digit others =>
        rw [List.map_cons, List.cons.injEq] at spelled
        rw [List.forall_mem_cons] at within
        exact ⟨digit, ⟨within.1, spelled.1⟩, others, ⟨within.2, spelled.2⟩, rfl⟩

/-- The number that digits denote, read from the left. -/
theorem foldl_digits (base : Nat) (digits : List Nat) :
    digits.foldl (fun total digit => total * base + digit) 0 =
      Nat.ofDigits base digits.reverse := by
  rw [Nat.ofDigits_eq_foldr, List.foldr_reverse]
  congr 1
  funext total digit
  rw [Nat.cast_id, Nat.mul_comm, Nat.add_comm]

/-- Whether a text consists of digits of a base that denote a number. -/
def Denotes (base : Nat) (text : List Char) (size : Nat) : Prop :=
  ∃ digits : List Nat, digits ≠ [] ∧ (∀ digit ∈ digits, digit < base) ∧
    digits.map Nat.digitChar = text ∧ Nat.ofDigits base digits.reverse = size

theorem readDigits?_eq_some_iff (few : base ≤ 16)
    (small : ∀ character ∈ text, isCapital character = false) :
    readDigits? base text = some size ↔ Denotes base text size := by
  have noUpper : ∀ character ∈ text, ¬ ('A' ≤ character ∧ character ≤ 'Z') :=
    fun character member => not_upper_of_small (small character member)
  unfold readDigits?
  split
  · constructor
    · rintro ⟨⟩
    · rintro ⟨digits, present, _, spelled, _⟩
      exact absurd (List.map_eq_nil_iff.mp spelled) present
  · rename_i nonempty
    rw [Option.map_eq_some_iff]
    constructor
    · rintro ⟨digits, read, rfl⟩
      obtain ⟨within, spelled⟩ := (mapM_baseDigit?_eq_some_iff few noUpper).mp read
      refine ⟨digits, ?_, within, spelled, (foldl_digits base digits).symm⟩
      rintro rfl
      exact nonempty spelled.symm
    · rintro ⟨digits, _, within, spelled, rfl⟩
      exact ⟨digits, (mapM_baseDigit?_eq_some_iff few noUpper).mpr ⟨within, spelled⟩,
        foldl_digits base digits⟩

end Text

namespace Normalizer

open Text (Denotes)

variable {normalizer : Normalizer} {operand text rest : List Char} {size : Nat}

/-! ### Immediates -/

/-- Whether a text spells a number: after the mark of a base, or in base ten without one. -/
inductive Spells : List Char → Nat → Prop
  | hexadecimal {digits : List Char} {size : Nat} :
      Denotes 16 digits size → Spells ('0' :: 'x' :: digits) size
  | octal {digits : List Char} {size : Nat} :
      Denotes 8 digits size → Spells ('0' :: 'o' :: digits) size
  | binary {digits : List Char} {size : Nat} :
      Denotes 2 digits size → Spells ('0' :: 'b' :: digits) size
  | decimal {digits : List Char} {size : Nat} : Denotes 10 digits size → Spells digits size

/-- Whether an operand is an immediate of a size: a spelled number, perhaps after a minus sign. -/
inductive IsImmediate : List Char → Nat → Prop
  | plain {operand : List Char} {size : Nat} : Spells operand size → IsImmediate operand size
  | negative {operand : List Char} {size : Nat} :
      Spells operand size → IsImmediate ('-' :: operand) size

theorem isDigit_of_denotes (denotes : Denotes 10 text size) :
    ∀ character ∈ text, character.isDigit = true := by
  obtain ⟨digits, _, within, rfl, _⟩ := denotes
  intro character member
  obtain ⟨digit, listed, rfl⟩ := List.mem_map.mp member
  have all : ∀ digit < 10, (Nat.digitChar digit).isDigit = true := by decide
  exact all digit (within digit listed)

theorem unsigned?_eq_some_iff (small : ∀ character ∈ text, Text.isCapital character = false) :
    unsigned? text = some size ↔ Spells text size := by
  -- the digits after a mark of two characters are in small letters, too
  have based {base : Nat} {first second : Char} {digits : List Char} (few : base ≤ 16)
      (whole : first :: second :: digits = text) :
      Text.readDigits? base digits = some size ↔ Denotes base digits size :=
    Text.readDigits?_eq_some_iff few fun character member =>
      small character (whole ▸ List.mem_cons_of_mem _ (List.mem_cons_of_mem _ member))
  have plain : Text.readDigits? 10 text = some size ↔ Denotes 10 text size :=
    Text.readDigits?_eq_some_iff (by decide) small
  constructor
  · intro read
    unfold unsigned? at read
    split at read
    · exact .hexadecimal ((based (by decide) rfl).mp read)
    · exact .octal ((based (by decide) rfl).mp read)
    · exact .binary ((based (by decide) rfl).mp read)
    · exact .decimal (plain.mp read)
  · intro spells
    cases spells with
    | hexadecimal denotes => exact (based (by decide) rfl).mpr denotes
    | octal denotes => exact (based (by decide) rfl).mpr denotes
    | binary denotes => exact (based (by decide) rfl).mpr denotes
    | decimal denotes =>
      -- no mark of a base is made of digits
      have letter (second : Char) (there : second ∈ text) (noDigit : second.isDigit = false) :
          unsigned? text = some size :=
        absurd (isDigit_of_denotes denotes second there) (Bool.eq_false_iff.mp noDigit)
      unfold unsigned?
      split
      · exact letter 'x' (by simp) rfl
      · exact letter 'o' (by simp) rfl
      · exact letter 'b' (by simp) rfl
      · exact plain.mpr denotes

/-- What is spelled does not begin with a minus sign. -/
theorem not_spells_minus : ¬ Spells ('-' :: rest) size := by
  rintro (_ | _ | _ | denotes)
  exact absurd (isDigit_of_denotes denotes '-' List.mem_cons_self) (by decide)

/-- Immediates in small letters are read as the numbers that they spell. -/
theorem immediate?_eq_some_iff
    (small : ∀ character ∈ operand, Text.isCapital character = false) :
    immediate? operand = some size ↔ IsImmediate operand size := by
  unfold immediate?
  split
  · rw [unsigned?_eq_some_iff (List.forall_mem_cons.mp small).2]
    constructor
    · exact .negative
    · rintro (spells | spells)
      · exact absurd spells not_spells_minus
      · exact spells
  · rename_i noSign
    rw [unsigned?_eq_some_iff small]
    constructor
    · exact .plain
    · rintro (spells | spells)
      · exact spells
      · exact absurd rfl (noSign _)

/-! ### Hidden immediates -/

/-- Words of 128 bits are enough to compare with a threshold of 64 bits. -/
theorem lt_saturated_iff (threshold : UInt64) (size : Nat) :
    threshold.toBitVec.setWidth 128 < saturated size ↔ threshold.toNat < size := by
  have word : threshold.toNat < 2 ^ 64 := threshold.toNat_lt
  have kept : (threshold.toBitVec.setWidth 128).toNat = threshold.toNat := by
    rw [BitVec.toNat_setWidth, UInt64.toNat_toBitVec]
    exact Nat.mod_eq_of_lt (Nat.lt_trans word (by decide))
  have fits : min size (2 ^ 128 - 1) < 2 ^ 128 := by omega
  rw [BitVec.lt_def, kept, saturated, BitVec.toNat_allOnes, BitVec.toNat_ofNat,
    Nat.mod_eq_of_lt fits]
  omega

/-- Whether an operand is an immediate above the threshold. -/
def Hides (normalizer : Normalizer) (operand : List Char) : Prop :=
  ∃ threshold size, normalizer.threshold = some threshold ∧ IsImmediate operand size ∧
    threshold.toNat < size

/-- In small letters exactly the immediates above the threshold are replaced. -/
theorem normalizeOperand_spec (normalizer : Normalizer)
    (small : ∀ character ∈ operand, Text.isCapital character = false) :
    (normalizer.Hides operand ∧ normalizer.normalizeOperand operand = immediateMark) ∨
      (¬ normalizer.Hides operand ∧ normalizer.normalizeOperand operand = operand) := by
  unfold normalizeOperand
  split
  · rename_i threshold _ given found
    obtain ⟨size, read, rfl⟩ := Option.map_eq_some_iff.mp found
    have compared := lt_saturated_iff threshold size
    by_cases above : threshold.toNat < size
    · exact Or.inl ⟨⟨threshold, size, given, (immediate?_eq_some_iff small).mp read, above⟩,
        if_pos (compared.mpr above)⟩
    · refine Or.inr ⟨?_, if_neg (mt compared.mp above)⟩
      rintro ⟨other, more, otherGiven, immediate, less⟩
      have same := (immediate?_eq_some_iff small).mpr immediate
      rw [Option.some.inj (otherGiven.symm.trans given),
        Option.some.inj (same.symm.trans read)] at less
      exact above less
  · rename_i noPair
    refine Or.inr ⟨?_, rfl⟩
    rintro ⟨threshold, size, given, immediate, _⟩
    have read := (immediate?_eq_some_iff small).mpr immediate
    exact noPair threshold (saturated size) given (by rw [magnitude?, read, Option.map_some])

end Normalizer

end FlowGraph
