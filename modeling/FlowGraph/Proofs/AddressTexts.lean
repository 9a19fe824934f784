/-
This file says which texts are read as addresses and mappings on a command line.
A number is spelled by at least one digit of its base, in small or capital
letters. It may come after a plus sign, but after no minus sign. Digits are
appended as long as the number fits into a machine word. No digit makes a number
smaller, so whether reading stops on the way depends on the whole number only,
and exactly the texts whose number is a machine word are read.

A mapping is cut at its last equals sign. What comes before it is the name, with
any other equals signs, and what comes after it is read as an address.
-/

import FlowGraph.CommandLine
import FlowGraph.Proofs.Immediates
import FlowGraph.Proofs.Outcome

namespace FlowGraph

namespace Text

variable {base digit size total value : Nat} {character : Char} {text : List Char}

/-! ### Digits in small and capital letters -/

/-- What holds of the 26 capital letters and their small ones, and of any other character and
itself, holds of every character and its small one. -/
theorem toLower_cases {motive : Char → Char → Prop}
    (capital : ∀ place < 26, motive (Char.ofNat (65 + place)) (Char.ofNat (65 + place)).toLower)
    (other : ∀ character : Char, ¬ ('A' ≤ character ∧ character ≤ 'Z') →
      motive character character)
    (character : Char) : motive character character.toLower := by
  by_cases upper : 'A' ≤ character ∧ character ≤ 'Z'
  · have bounds : 65 ≤ character.toNat ∧ character.toNat ≤ 90 := upper
    have place := capital (character.toNat - 65) (by omega)
    rwa [Nat.add_sub_cancel' bounds.1, Char.ofNat_toNat] at place
  · have same : character.toLower = character := dif_neg upper
    rw [same]
    exact other character upper

/-- No capital letter is left. -/
theorem not_upper_toLower (character : Char) :
    ¬ ('A' ≤ character.toLower ∧ character.toLower ≤ 'Z') :=
  toLower_cases (motive := fun _ small => ¬ ('A' ≤ small ∧ small ≤ 'Z')) (by decide)
    (fun _ noUpper => noUpper) character

theorem digitValue?_toLower (character : Char) :
    digitValue? character.toLower = digitValue? character :=
  toLower_cases (motive := fun character small => digitValue? small = digitValue? character)
    (by decide) (fun _ _ => rfl) character

/-- Whether a text consists of digits of a base, in small or capital letters, that denote a
number. -/
def Digits (base : Nat) (text : List Char) (size : Nat) : Prop :=
  Denotes base (text.map Char.toLower) size

/-- Whether a text is a number of a base, perhaps after a plus sign. -/
def Numbers (base : Nat) (text : List Char) (size : Nat) : Prop :=
  Digits base text size ∨ ∃ digits, text = '+' :: digits ∧ Digits base digits size

theorem mapM_baseDigit?_toLower (base : Nat) (text : List Char) :
    (text.map Char.toLower).mapM (baseDigit? base) = text.mapM (baseDigit? base) := by
  rw [List.mapM_map]
  congr 1
  funext character
  rw [Function.comp_apply, baseDigit?, digitValue?_toLower, baseDigit?]

theorem digits_iff (few : base ≤ 16) : Digits base text size ↔ text ≠ [] ∧
    ∃ digits, text.mapM (baseDigit? base) = some digits ∧
      digits.foldl (fun total digit => total * base + digit) 0 = size := by
  have noUpper : ∀ character ∈ text.map Char.toLower, ¬ ('A' ≤ character ∧ character ≤ 'Z') :=
    List.forall_mem_map.mpr fun character _ => not_upper_toLower character
  rw [← mapM_baseDigit?_toLower]
  constructor
  · rintro ⟨digits, present, within, spelled, denoted⟩
    refine ⟨?_, digits, (mapM_baseDigit?_eq_some_iff few noUpper).mpr ⟨within, spelled⟩,
      (foldl_digits base digits).trans denoted⟩
    rintro rfl
    exact present (List.map_eq_nil_iff.mp spelled)
  · rintro ⟨present, digits, read, denoted⟩
    obtain ⟨within, spelled⟩ := (mapM_baseDigit?_eq_some_iff few noUpper).mp read
    refine ⟨digits, ?_, within, spelled, (foldl_digits base digits).symm.trans denoted⟩
    rintro rfl
    exact present (List.map_eq_nil_iff.mp spelled.symm)

/-! ### Machine words -/

theorem le_foldl_appended (positive : 0 < base) (digits : List Nat) (start : Nat) :
    start ≤ digits.foldl (fun total digit => total * base + digit) start := by
  induction digits generalizing start with
  | nil => exact Nat.le_refl _
  | cons digit rest inductionHypothesis =>
    refine Nat.le_trans ?_ (inductionHypothesis (start * base + digit))
    exact Nat.le_trans (Nat.le_mul_of_pos_right start positive) (Nat.le_add_right _ _)

/-- Digits are appended if all of them are digits of the base and the whole number is a machine
word. -/
theorem appendDigits_eq_ok_iff (positive : 0 < base) (small : total < UInt64.size) :
    appendDigits base total text = .ok value ↔
      ∃ digits, text.mapM (baseDigit? base) = some digits ∧
        digits.foldl (fun total digit => total * base + digit) total = value ∧
        value < UInt64.size := by
  induction text generalizing total with
  | nil =>
    rw [appendDigits, List.mapM_nil]
    constructor
    · rintro ⟨⟩
      exact ⟨[], rfl, rfl, small⟩
    · rintro ⟨_, ⟨⟩, rfl, _⟩
      rfl
  | cons character rest inductionHypothesis =>
    rw [appendDigits, List.mapM_cons]
    cases baseDigit? base character with
    | none => exact ⟨fun equal => (nomatch equal), fun ⟨_, absent, _⟩ => (nomatch absent)⟩
    | some digit =>
      simp only [Option.bind_eq_bind, Option.bind_some, Option.bind_eq_some_iff, Option.pure_def,
        Option.some.injEq]
      split
      · rename_i fits
        rw [inductionHypothesis fits]
        constructor
        · rintro ⟨digits, read, whole⟩
          exact ⟨digit :: digits, ⟨digits, read, rfl⟩, whole⟩
        · rintro ⟨_, ⟨digits, read, rfl⟩, whole⟩
          exact ⟨digits, read, whole⟩
      · rename_i tooLarge
        refine ⟨fun equal => (nomatch equal), ?_⟩
        rintro ⟨_, ⟨digits, _, rfl⟩, rfl, fits⟩
        exact absurd (Nat.lt_of_le_of_lt (le_foldl_appended positive digits _) fits) tooLarge

/-- Exactly the numbers that are machine words are read. -/
theorem readWord_eq_ok_iff (positive : 0 < base) (few : base ≤ 16) {word : UInt64} :
    readWord base text = .ok word ↔ Numbers base text word.toNat := by
  have read (digits : List Char) (present : digits ≠ []) :
      (appendDigits base 0 digits).map UInt64.ofNat = .ok word ↔ Digits base digits word.toNat := by
    rw [Outcome.map_eq_ok_iff, digits_iff few]
    simp only [appendDigits_eq_ok_iff positive (by decide : 0 < UInt64.size)]
    constructor
    · rintro ⟨value, ⟨values, mapped, denoted, fits⟩, rfl⟩
      refine ⟨present, values, mapped, ?_⟩
      rw [denoted, UInt64.toNat_ofNat', Nat.mod_eq_of_lt fits]
    · rintro ⟨_, values, mapped, denoted⟩
      exact ⟨word.toNat, ⟨values, mapped, denoted, word.toNat_lt⟩, UInt64.ofNat_toNat⟩
  have noSign {digits : List Char} : ¬ Digits base ('+' :: digits) word.toNat := by
    rw [digits_iff few, List.mapM_cons]
    rintro ⟨_, _, ⟨⟩, _⟩
  unfold readWord
  split
  · refine ⟨fun equal => (nomatch equal), ?_⟩
    rintro (spelled | ⟨_, ⟨⟩, _⟩)
    exact absurd rfl ((digits_iff few).mp spelled).1
  · refine ⟨fun equal => (nomatch equal), ?_⟩
    rintro (spelled | ⟨_, ⟨⟩, spelled⟩)
    · exact absurd spelled noSign
    · exact absurd rfl ((digits_iff few).mp spelled).1
  · rename_i digits present
    rw [read digits fun none => present (none ▸ rfl)]
    refine ⟨fun spelled => Or.inr ⟨digits, rfl, spelled⟩, ?_⟩
    rintro (spelled | ⟨_, ⟨⟩, spelled⟩)
    · exact absurd spelled noSign
    · exact spelled
  · rename_i present _ plain
    rw [read text present]
    refine ⟨Or.inl, ?_⟩
    rintro (spelled | ⟨digits, rfl, _⟩)
    · exact spelled
    · exact absurd rfl (plain digits)

/-! ### Blanks around a number -/

theorem isBlank_of_digitValue? (digit : (digitValue? character).isSome = true) :
    isBlank character = false := by
  have alphanumeric : '0' ≤ character ∧ character ≤ '9' ∨ 'a' ≤ character ∧ character ≤ 'z' ∨
      'A' ≤ character ∧ character ≤ 'Z' := by
    unfold digitValue? at digit
    split at digit
    · exact Or.inl ‹_›
    · split at digit
      · exact Or.inr (Or.inl ‹_›)
      · split at digit
        · exact Or.inr (Or.inr ‹_›)
        · cases digit
  have codes : 48 ≤ character.toNat ∧ character.toNat ≤ 57 ∨
      97 ≤ character.toNat ∧ character.toNat ≤ 122 ∨
      65 ≤ character.toNat ∧ character.toNat ≤ 90 := alphanumeric
  rw [Bool.eq_false_iff, Ne, isBlank, inRanges_eq_true]
  rintro ⟨range, member, within⟩
  simp only [blankRanges, List.mem_cons, List.not_mem_nil, or_false] at member
  rcases member with rfl | rfl | rfl | rfl | rfl | rfl | rfl | rfl | rfl | rfl <;> omega

/-- A number has no blanks in it. -/
theorem Numbers.solid (few : base ≤ 16) (numbers : Numbers base text size) :
    text ≠ [] ∧ ∀ character ∈ text, isBlank character = false := by
  have digits {text : List Char} (digits : Digits base text size) :
      text ≠ [] ∧ ∀ character ∈ text, isBlank character = false := by
    obtain ⟨present, values, read, _⟩ := (digits_iff few).mp digits
    refine ⟨present, fun character member => isBlank_of_digitValue? ?_⟩
    obtain ⟨value, found⟩ :=
      Option.isSome_iff_exists.mp (Normalizer.isSome_of_mapM read character member)
    exact Option.isSome_of_eq_some (Option.filter_eq_some_iff.mp found).1
  rcases numbers with plain | ⟨rest, rfl, signed⟩
  · exact digits plain
  · exact ⟨List.cons_ne_nil _ _, List.forall_mem_cons.mpr ⟨rfl, (digits signed).2⟩⟩

/-- Trimming takes exactly the blanks that were put around a text without blanks. -/
theorem trim_surrounded {front core back : List Char} (present : core ≠ [])
    (solid : ∀ character ∈ core, isBlank character = false)
    (blankFront : ∀ character ∈ front, isBlank character = true)
    (blankBack : ∀ character ∈ back, isBlank character = true) :
    trim (front ++ core ++ back) = core := by
  have first : (core ++ back).dropWhile isBlank = core ++ back := by
    obtain ⟨character, rest, rfl⟩ := List.exists_cons_of_ne_nil present
    exact List.dropWhile_cons_of_neg (Bool.eq_false_iff.mp (solid character List.mem_cons_self))
  have last : core.rdropWhile isBlank = core :=
    List.rdropWhile_eq_self_iff.mpr fun _ =>
      Bool.eq_false_iff.mp (solid _ (List.getLast_mem present))
  rw [List.append_assoc, trim, List.dropWhile_append_of_pos blankFront, first, trimEnd,
    List.reverse_append, List.dropWhile_append_of_pos fun character member =>
      blankBack character (List.mem_reverse.mp member)]
  exact last

end Text

namespace CommandLine

open Text (Digits Numbers)

/-! ### Addresses -/

/-- Whether a text is an address: a number of base ten, or one of base sixteen after the mark of
hexadecimal numbers. It is left open what a number of a base is. -/
inductive AddressText (number : Nat → List Char → Nat → Prop) : List Char → Nat → Prop
  | decimal {text : List Char} {size : Nat} : number 10 text size → AddressText number text size
  | hexadecimal {mark : Char} {text : List Char} {size : Nat} : mark = 'x' ∨ mark = 'X' →
      number 16 text size → AddressText number ('0' :: mark :: text) size

/-- Whether a text is an address with blanks around it. -/
def Addresses (number : Nat → List Char → Nat → Prop) (text : List Char) (size : Nat) : Prop :=
  ∃ front core back, text = front ++ core ++ back ∧
    (∀ character ∈ front, Text.isBlank character = true) ∧
    (∀ character ∈ back, Text.isBlank character = true) ∧ AddressText number core size

section

variable {number : Nat → List Char → Nat → Prop} {text : List Char} {size : Nat}

theorem AddressText.solid
    (weaker : ∀ {base text size}, number base text size → Numbers base text size)
    (address : AddressText number text size) :
    text ≠ [] ∧ ∀ character ∈ text, Text.isBlank character = false := by
  cases address with
  | decimal counted => exact (weaker counted).solid (by decide)
  | @hexadecimal letter _ _ mark counted =>
    have markSolid : Text.isBlank letter = false := by rcases mark with rfl | rfl <;> rfl
    exact ⟨List.cons_ne_nil _ _, List.forall_mem_cons.mpr ⟨rfl, List.forall_mem_cons.mpr
      ⟨markSolid, ((weaker counted).solid (by decide)).2⟩⟩⟩

/-- The blanks around an address are those that trimming takes. -/
theorem addresses_iff
    (weaker : ∀ {base text size}, number base text size → Numbers base text size) :
    Addresses number text size ↔ AddressText number (Text.trim text) size := by
  constructor
  · rintro ⟨front, core, back, rfl, blankFront, blankBack, address⟩
    obtain ⟨present, solid⟩ := address.solid weaker
    rwa [Text.trim_surrounded present solid blankFront blankBack]
  · intro address
    obtain ⟨front, back, whole, blankFront, blankBack⟩ := Text.exists_trim_eq text
    exact ⟨front, _, back, whole.symm, blankFront, blankBack, address⟩

end

/-- The mark of hexadecimal numbers is no digit of base ten. -/
theorem not_numbers_of_mark {mark : Char} {rest : List Char} {size : Nat}
    (isMark : mark = 'x' ∨ mark = 'X') : ¬ Numbers 10 ('0' :: mark :: rest) size := by
  rintro (digits | ⟨_, ⟨⟩, _⟩)
  obtain ⟨_, _, read, _⟩ := (Text.digits_iff (by decide)).mp digits
  rw [List.mapM_cons, List.mapM_cons] at read
  rcases isMark with rfl | rfl <;> cases read

theorem addressText_mark_iff {mark : Char} {rest : List Char} {size : Nat}
    (isMark : mark = 'x' ∨ mark = 'X') :
    AddressText Numbers ('0' :: mark :: rest) size ↔ Numbers 16 rest size := by
  refine ⟨fun address => ?_, .hexadecimal isMark⟩
  cases address with
  | decimal numbers => exact absurd numbers (not_numbers_of_mark isMark)
  | hexadecimal _ numbers => exact numbers

/-- Exactly the addresses that are machine words are read. -/
theorem parseAddress_eq_ok_iff {text : String} {address : Address} :
    parseAddress text = .ok address ↔ Addresses Numbers text.toList address.toNat := by
  rw [addresses_iff id, parseAddress, Outcome.mapError_eq_ok_iff]
  split
  · rename_i marked
    rw [marked, addressText_mark_iff (Or.inl rfl), Text.readWord_eq_ok_iff (by decide) (by decide)]
  · rename_i marked
    rw [marked, addressText_mark_iff (Or.inr rfl), Text.readWord_eq_ok_iff (by decide) (by decide)]
  · rename_i noSmall noCapital
    rw [Text.readWord_eq_ok_iff (by decide) (by decide)]
    refine ⟨.decimal, fun address => ?_⟩
    generalize Text.trim text.toList = core at address noSmall noCapital ⊢
    cases address with
    | decimal numbers => exact numbers
    | hexadecimal mark _ =>
      rcases mark with rfl | rfl
      · exact absurd rfl (noSmall _)
      · exact absurd rfl (noCapital _)

/-! ### Mappings -/

/-- A text is cut where no other equals sign comes later. -/
theorem splitAtLastEquals_eq_some_iff {text name rest : List Char} :
    splitAtLastEquals text = some (name, rest) ↔ text = name ++ '=' :: rest ∧ '=' ∉ rest := by
  unfold splitAtLastEquals
  dsimp only
  constructor
  · intro cut
    split at cut
    · cases cut
    · rename_i first before found
      obtain ⟨rfl, rfl⟩ := Prod.mk.injEq .. ▸ Option.some.inj cut
      have stops := List.head?_dropWhile_not (fun character => character != '=') text.reverse
      rw [found] at stops
      obtain rfl : first = '=' := bne_eq_false_iff_eq.mp stops
      have whole := List.takeWhile_append_dropWhile (p := fun character => character != '=')
        (l := text.reverse)
      rw [found, ← List.reverse_inj, List.reverse_reverse, List.reverse_append,
        List.reverse_cons, List.append_assoc] at whole
      refine ⟨whole.symm, fun member => ?_⟩
      have passes := List.mem_takeWhile_imp (List.mem_reverse.mp member)
      exact absurd passes (by decide)
  · rintro ⟨rfl, last⟩
    have passes : ∀ character ∈ rest.reverse, (character != '=') = true := fun character member =>
      bne_iff_ne.mpr fun same => last (same ▸ List.mem_reverse.mp member)
    rw [List.reverse_append, List.reverse_cons, List.append_assoc, List.singleton_append,
      List.dropWhile_append_of_pos passes, List.takeWhile_append_of_pos passes]
    simp

/-- Exactly a name that is not empty and an address with an equals sign between them are a
mapping; the name may hold other equals signs. -/
theorem parseMapping_eq_ok_iff {text name : String} {address : Address} :
    parseMapping text = .ok (name, address) ↔ name ≠ "" ∧ ∃ rest, text = name ++ "=" ++ rest ∧
      '=' ∉ rest.toList ∧ parseAddress rest = .ok address := by
  have cut (rest : String) : text = name ++ "=" ++ rest ∧ '=' ∉ rest.toList ↔
      splitAtLastEquals text.toList = some (name.toList, rest.toList) := by
    rw [splitAtLastEquals_eq_some_iff, ← String.toList_inj, String.toList_append,
      String.toList_append, List.append_assoc]
    rfl
  unfold parseMapping
  constructor
  · intro read
    split at read
    · cases read
    · cases read
    · rename_i first rest present found
      obtain ⟨value, parsed, same⟩ := Outcome.map_eq_ok_iff.mp read
      obtain ⟨rfl, rfl⟩ := Prod.mk.injEq .. ▸ same
      refine ⟨fun none => ?_, String.ofList rest, ?_⟩
      · have empty := congrArg String.toList none
        rw [String.toList_ofList] at empty
        exact present empty
      · rw [← and_assoc, cut, String.toList_ofList, String.toList_ofList]
        exact ⟨found, parsed⟩
  · rintro ⟨present, rest, whole, last, parsed⟩
    have filled : name.toList ≠ [] := fun none => present (String.toList_inj.mp none)
    obtain ⟨character, later, named⟩ := List.exists_cons_of_ne_nil filled
    rw [(cut rest).mp ⟨whole, last⟩, named]
    dsimp only
    rw [← named, String.ofList_toList, String.ofList_toList, parsed]
    rfl

/-! ### Exactly what is read -/

/-- A text is read as an address exactly if it is one, with blanks around it or not: digits of base
ten, or of base sixteen after their mark, that denote a machine word, perhaps after a plus sign. A
mapping is read exactly if an address comes after its last equals sign and a name before it. -/
theorem addresses_and_mappings_read :
    (∀ (text : String) (address : Address), parseAddress text = .ok address ↔
        Addresses Numbers text.toList address.toNat) ∧
      ∀ (text name : String) (address : Address), parseMapping text = .ok (name, address) ↔
        name ≠ "" ∧ ∃ rest, text = name ++ "=" ++ rest ∧ '=' ∉ rest.toList ∧
          parseAddress rest = .ok address :=
  ⟨fun _ _ => parseAddress_eq_ok_iff, fun _ _ _ => parseMapping_eq_ok_iff⟩

/-- Digits alone do not make up all addresses that are read: there may be a plus sign. -/
theorem plus_sign_read : parseAddress "0x+10" = .ok 16 ∧ parseAddress "+16" = .ok 16 ∧
    ¬ Addresses Digits "0x+10".toList 16 ∧ ¬ Addresses Digits "+16".toList 16 := by
  have unread {base : Nat} {text : List Char} (few : base ≤ 16)
      (none : text.mapM (Text.baseDigit? base) = none) : ¬ Digits base text 16 := fun digits => by
    obtain ⟨_, _, read, _⟩ := (Text.digits_iff few).mp digits
    rw [none] at read
    cases read
  refine ⟨rfl, rfl, fun signed => ?_, fun signed => ?_⟩
  · cases (addresses_iff Or.inl).mp signed with
    | decimal digits => exact unread (by decide) rfl digits
    | hexadecimal _ digits => exact unread (by decide) rfl digits
  · cases (addresses_iff Or.inl).mp signed with
    | decimal digits => exact unread (by decide) rfl digits

end CommandLine

end FlowGraph
