/-
This file is about the last steps to the normal form of a line: blanks are trimmed
from both ends, and the words between separators are joined by single spaces, with
marks in place of large immediates. Joined words are read back as they are, the ends
of a text that are no separators stay its ends, and all in all a text is rewritten
in a harmless way.
-/

import FlowGraph.Proofs.Literals
import FlowGraph.Proofs.Provenance
import Mathlib.Data.List.DropRight

namespace FlowGraph.Text

/-! ### Trimming -/

theorem trimEnd_eq (text : List Char) : trimEnd text = text.rdropWhile isBlank := rfl

/-- Trimming takes blanks from both ends. -/
theorem exists_trim_eq (text : List Char) : ∃ front back, front ++ trim text ++ back = text ∧
    (∀ character ∈ front, isBlank character = true) ∧
      ∀ character ∈ back, isBlank character = true := by
  refine ⟨text.takeWhile isBlank, (text.dropWhile isBlank).rtakeWhile isBlank, ?_,
    fun _ member => List.mem_takeWhile_imp member, fun _ member => List.mem_rtakeWhile_imp member⟩
  rw [trim, trimEnd_eq, List.append_assoc, List.rdropWhile_append_rtakeWhile,
    List.takeWhile_append_dropWhile]

/-- Whether a character at an end of a text, if there is one, is not blank. -/
def Solid (ending : Option Char) : Prop := ∀ character ∈ ending, isBlank character = false

instance (ending : Option Char) : Decidable (Solid ending) :=
  decidable_of_iff (ending.all fun character => !isBlank character)
    (by simp [Solid, Option.all_eq_true])

/-- A text with solid ends is not trimmed. -/
theorem trim_of_solid {text : List Char} (first : Solid text.head?) (last : Solid text.getLast?) :
    trim text = text := by
  have front : text.dropWhile isBlank = text := by
    cases text with
    | nil => rfl
    | cons character rest =>
      exact List.dropWhile_cons_of_neg (Bool.eq_false_iff.mp (first character rfl))
  rw [trim, front, trimEnd_eq, List.rdropWhile_eq_self_iff]
  exact fun present => Bool.eq_false_iff.mp (last _ (List.getLast?_eq_some_getLast present))

theorem solid_getLast?_trim (text : List Char) : Solid (trim text).getLast? := by
  intro character there
  obtain ⟨present, rfl⟩ := List.mem_getLast?_eq_getLast there
  exact Bool.eq_false_iff.mpr (List.rdropWhile_last_not _ _ present)

theorem solid_head?_trim (text : List Char) : Solid (trim text).head? := by
  intro character there
  obtain ⟨back, whole⟩ := List.rdropWhile_prefix isBlank (text.dropWhile isBlank)
  have first : character ∈ (text.dropWhile isBlank).head? := by
    rw [← whole, ← trimEnd_eq, ← trim, List.head?_append, Option.mem_def.mp there]
    rfl
  have solid := List.head?_dropWhile_not isBlank text
  rwa [Option.mem_def.mp first] at solid

end FlowGraph.Text

namespace FlowGraph.Normalizer

open Text (Rewrites)

variable {text rest word : List Char} {words : List (List Char)}

/-! ### Words -/

/-- Whether a text is a word: not empty and without separators. -/
structure Word (word : List Char) : Prop where
  present : word ≠ []
  noSeparator : ∀ character ∈ word, isSeparator character = false

theorem word_of_mem_operands (member : word ∈ operands text) : Word word := by
  refine ⟨?_, isSeparator_of_mem_operands member⟩
  fun_induction operands text with
  | case1 => cases member
  | case2 character rest _ inductionHypothesis => exact inductionHypothesis member
  | case3 character rest _ first inductionHypothesis =>
    rcases List.mem_cons.mp member with rfl | later
    · exact List.cons_ne_nil _ _
    · exact inductionHypothesis later

/-- The words with single spaces between them. -/
def joined (words : List (List Char)) : List Char := [' '].intercalate words

theorem joined_cons (present : words ≠ []) (word : List Char) :
    joined (word :: words) = word ++ ' ' :: joined words := by
  rw [joined, List.intercalate_cons_of_ne_nil present, List.append_assoc]
  rfl

theorem joined_singleton (word : List Char) : joined [word] = word := List.intercalate_singleton

/-- A word up to a separator or the end is an operand. -/
theorem operands_append (isWord : Word word)
    (ends : ∀ character ∈ rest.head?, isSeparator character = true) :
    operands (word ++ rest) = word :: operands rest := by
  obtain ⟨present, noSeparator⟩ := isWord
  cases word with
  | nil => exact absurd rfl present
  | cons character later =>
    rw [List.forall_mem_cons] at noSeparator
    have stays (other : Char) (member : other ∈ later) : (!isSeparator other) = true := by
      rw [noSeparator.2 other member]
      rfl
    have whole : (later ++ rest).takeWhile (fun next => !isSeparator next) = later ∧
        (later ++ rest).dropWhile (fun next => !isSeparator next) = rest := by
      rw [List.takeWhile_append_of_pos stays, List.dropWhile_append_of_pos stays]
      cases rest with
      | nil => simp
      | cons next _ => simp [ends next rfl]
    rw [List.cons_append, operands, if_neg (Bool.eq_false_iff.mp noSeparator.1)]
    simp only [whole.1, whole.2]

/-- Joined words are the operands of the text that they make. -/
theorem operands_joined (areWords : ∀ word ∈ words, Word word) :
    operands (joined words) = words := by
  induction words with
  | nil => rw [joined, List.intercalate_nil, operands]
  | cons word rest inductionHypothesis =>
    rw [List.forall_mem_cons] at areWords
    by_cases last : rest = []
    · have alone : operands (word ++ []) = word :: operands [] :=
        operands_append areWords.1 fun character none => (Option.not_mem_none character none).elim
      rw [last, joined_singleton, ← List.append_nil word, alone, operands, List.append_nil]
    · have space : ∀ character ∈ (' ' :: joined rest).head?, isSeparator character = true := by
        simp [isSeparator]
      rw [joined_cons last, operands_append areWords.1 space, operands, if_pos (by decide),
        inductionHypothesis areWords.2]

theorem mem_joined {character : Char} (member : character ∈ joined words) :
    character = ' ' ∨ ∃ word ∈ words, character ∈ word := by
  obtain ⟨part, listed, inside⟩ := List.mem_flatten.mp member
  rcases mem_intersperse listed with rfl | isWord
  · exact Or.inl (List.mem_singleton.mp inside)
  · exact Or.inr ⟨part, isWord, inside⟩

/-! ### Ends -/

theorem head?_joined (present : ∀ word ∈ words, word ≠ []) :
    (joined words).head? = words.head?.bind List.head? := by
  cases words with
  | nil => rfl
  | cons word rest =>
    rw [List.forall_mem_cons] at present
    by_cases last : rest = []
    · rw [last, joined_singleton, List.head?_cons, Option.bind_some]
    · rw [joined_cons last, List.head?_append_of_ne_nil _ present.1, List.head?_cons,
        Option.bind_some]

theorem getLast?_joined (present : ∀ word ∈ words, word ≠ []) :
    (joined words).getLast? = words.getLast?.bind List.getLast? := by
  induction words with
  | nil => rfl
  | cons word rest inductionHypothesis =>
    rw [List.forall_mem_cons] at present
    by_cases last : rest = []
    · rw [last, joined_singleton, List.getLast?_singleton, Option.bind_some]
    · obtain ⟨final, finalThere⟩ := Option.ne_none_iff_exists'.mp
        (mt List.getLast?_eq_none_iff.mp last)
      obtain ⟨character, there⟩ := Option.ne_none_iff_exists'.mp (mt List.getLast?_eq_none_iff.mp
        (present.2 final (List.mem_of_getLast? finalThere)))
      rw [joined_cons last, List.getLast?_append, List.getLast?_cons, List.getLast?_cons,
        inductionHypothesis present.2, finalThere, Option.bind_some, there]
      exact there.symm

/-- The first character of a text begins the first operand if it is no separator. -/
theorem exists_head?_operands {character : Char} (first : character ∈ text.head?)
    (stays : isSeparator character = false) :
    ∃ word ∈ (operands text).head?, character ∈ word.head? := by
  cases text with
  | nil => cases first
  | cons other rest =>
    obtain rfl := Option.some.inj first
    rw [operands, if_neg (Bool.eq_false_iff.mp stays)]
    exact ⟨_, rfl, rfl⟩

/-- The last character of a text ends the last operand if it is no separator. -/
theorem exists_getLast?_operands {character : Char} (last : character ∈ text.getLast?)
    (stays : isSeparator character = false) :
    ∃ word ∈ (operands text).getLast?, character ∈ word.getLast? := by
  fun_induction operands text with
  | case1 => cases last
  | case2 separator rest separates inductionHypothesis =>
    refine inductionHypothesis ?_
    rw [Option.mem_def, List.getLast?_cons, Option.some.injEq] at last
    cases ending : rest.getLast? with
    | none =>
      rw [ending, Option.getD_none] at last
      cases stays.symm.trans (last ▸ separates)
    | some other =>
      rw [ending, Option.getD_some] at last
      rw [last, Option.mem_def]
  | case3 other rest _ word inductionHypothesis =>
    have whole : word ++ rest.dropWhile (fun next => !isSeparator next) = other :: rest :=
      congrArg (other :: ·) List.takeWhile_append_dropWhile
    rw [← whole, Option.mem_def, List.getLast?_append] at last
    cases ending : (rest.dropWhile fun next => !isSeparator next).getLast? with
    | none =>
      rw [List.getLast?_eq_none_iff.mp ending, operands]
      rw [ending, Option.none_or] at last
      exact ⟨word, rfl, last⟩
    | some final =>
      rw [ending, Option.some_or] at last
      obtain ⟨final, there, ends⟩ := inductionHypothesis (ending.trans last)
      refine ⟨final, ?_, ends⟩
      rw [Option.mem_def, List.getLast?_cons, Option.mem_def.mp there, Option.getD_some]

/-! ### Immediates -/

theorem isSome_of_mapM {Item Content : Type} {step : Item → Option Content} {items : List Item}
    {contents : List Content} (read : items.mapM step = some contents) :
    ∀ item ∈ items, (step item).isSome = true := by
  induction items generalizing contents with
  | nil => exact fun _ member => nomatch member
  | cons item rest inductionHypothesis =>
    rw [List.mapM_cons] at read
    obtain ⟨content, here, read⟩ := Option.bind_eq_some_iff.mp read
    obtain ⟨others, later, _⟩ := Option.bind_eq_some_iff.mp read
    exact List.forall_mem_cons.mpr ⟨Option.isSome_of_eq_some here, inductionHypothesis later⟩

/-- Whether a text is nothing but digits and letters. -/
def Alphanumeric (text : List Char) : Prop :=
  ∀ character ∈ text, (Text.digitValue? character).isSome = true

theorem alphanumeric_of_readDigits? {base size : Nat} {digits : List Char}
    (read : Text.readDigits? base digits = some size) : digits ≠ [] ∧ Alphanumeric digits := by
  unfold Text.readDigits? at read
  split at read
  · cases read
  · rename_i present
    obtain ⟨values, valued, _⟩ := Option.map_eq_some_iff.mp read
    refine ⟨present, fun character member => ?_⟩
    obtain ⟨value, found⟩ := Option.isSome_iff_exists.mp (isSome_of_mapM valued character member)
    exact Option.isSome_of_eq_some (Option.filter_eq_some_iff.mp found).1

/-- An immediate without its sign consists of digits and letters. -/
theorem alphanumeric_of_unsigned? {unsigned : List Char} {size : Nat}
    (read : unsigned? unsigned = some size) : unsigned ≠ [] ∧ Alphanumeric unsigned := by
  have based {base : Nat} {letter : Char} {digits : List Char}
      (isLetter : (Text.digitValue? letter).isSome = true)
      (read : Text.readDigits? base digits = some size) :
      '0' :: letter :: digits ≠ [] ∧ Alphanumeric ('0' :: letter :: digits) :=
    ⟨List.cons_ne_nil _ _, List.forall_mem_cons.mpr ⟨rfl, List.forall_mem_cons.mpr
      ⟨isLetter, (alphanumeric_of_readDigits? read).2⟩⟩⟩
  unfold unsigned? at read
  split at read
  · exact based rfl read
  · exact based rfl read
  · exact based rfl read
  · exact alphanumeric_of_readDigits? read

/-- An immediate consists of digits and letters, perhaps after a minus sign. -/
theorem mem_of_immediate? {size : Nat} (immediate : immediate? word = some size) :
    word ≠ [] ∧
      ∀ character ∈ word, character = '-' ∨ (Text.digitValue? character).isSome = true := by
  unfold immediate? at immediate
  split at immediate
  · have magnitude := alphanumeric_of_unsigned? immediate
    exact ⟨List.cons_ne_nil _ _, List.forall_mem_cons.mpr
      ⟨Or.inl rfl, fun character member => Or.inr (magnitude.2 character member)⟩⟩
  · have magnitude := alphanumeric_of_unsigned? immediate
    exact ⟨magnitude.1, fun character member => Or.inr (magnitude.2 character member)⟩

/-- An operand is kept, or it is an immediate and replaced by its mark. -/
theorem normalizeOperand_cases (normalizer : Normalizer) (operand : List Char) :
    normalizer.normalizeOperand operand = operand ∨
      normalizer.normalizeOperand operand = immediateMark ∧
        ∃ size, immediate? operand = some size := by
  unfold normalizeOperand
  split
  · rename_i found
    split
    · obtain ⟨size, immediate, _⟩ := Option.map_eq_some_iff.mp found
      exact Or.inr ⟨rfl, size, immediate⟩
    · exact Or.inl rfl
  · exact Or.inl rfl

theorem normalizeOperand_immediateMark (normalizer : Normalizer) :
    normalizer.normalizeOperand immediateMark = immediateMark := by
  rcases normalizer.normalizeOperand_cases immediateMark with kept | ⟨hidden, _⟩
  · exact kept
  · exact hidden

theorem normalizeOperand_normalizeOperand (normalizer : Normalizer) (operand : List Char) :
    normalizer.normalizeOperand (normalizer.normalizeOperand operand) =
      normalizer.normalizeOperand operand := by
  rcases normalizer.normalizeOperand_cases operand with kept | ⟨hidden, _⟩
  · rw [kept, kept]
  · rw [hidden, normalizeOperand_immediateMark]

theorem word_normalizeOperand (normalizer : Normalizer) (isWord : Word word) :
    Word (normalizer.normalizeOperand word) := by
  rcases normalizer.normalizeOperand_cases word with kept | ⟨hidden, _⟩
  · rwa [kept]
  · rw [hidden]
    have stays : immediateMark.all (fun character => !isSeparator character) = true := by decide
    exact ⟨by decide, fun character member =>
      Bool.not_eq_true' _ ▸ List.all_eq_true.mp stays character member⟩

/-! ### Joining as rewriting -/

/-- Separators that become one space, and an immediate that becomes its mark. -/
def Respacing (old new : List Char) : Prop :=
  (new = [' '] ∧ old ≠ [] ∧ ∀ character ∈ old, isSeparator character = true) ∨
    (new = immediateMark ∧ ∃ size, immediate? old = some size)

theorem harmless_of_respacing {old new : List Char} (respacing : Respacing old new) :
    Harmless old new := by
  have ordinary {old : List Char} (present : old ≠ [])
      (others : ∀ character ∈ old, character ≠ '\n' ∧ character ≠ '\\') :
      old ≠ [] ∧ '\n' ∉ old ∧ old.getLast? ≠ some '\\' :=
    ⟨present, fun member => (others _ member).1 rfl,
      fun last => (others _ (List.mem_of_getLast? last)).2 rfl⟩
  rcases respacing with ⟨rfl, present, separators⟩ | ⟨rfl, size, immediate⟩
  · obtain ⟨present, noLineEnd, last⟩ := ordinary present fun character member => by
      constructor <;> rintro rfl <;> exact absurd (separators _ member) (by decide)
    exact ⟨present, noLineEnd, last, by decide, by decide⟩
  · obtain ⟨present, members⟩ := mem_of_immediate? immediate
    obtain ⟨present, noLineEnd, last⟩ := ordinary present fun character member => by
      constructor <;> rintro rfl <;> exact absurd (members _ member) (by decide)
    exact ⟨present, noLineEnd, last, by decide, by decide⟩

/-- Joining the operands of a text, up to immediates, rewrites what comes after the separators at
its beginning. -/
theorem rewrites_joined (normalizer : Normalizer) (text : List Char) :
    Rewrites Respacing (text.dropWhile isSeparator)
      (joined ((operands text).map normalizer.normalizeOperand)) := by
  fun_induction operands text with
  | case1 => exact .stop []
  | case2 separator rest separates inductionHypothesis =>
    rwa [List.dropWhile_cons_of_pos separates]
  | case3 character rest stays word inductionHypothesis =>
    have whole : word ++ rest.dropWhile (fun next => !isSeparator next) = character :: rest :=
      congrArg (character :: ·) List.takeWhile_append_dropWhile
    have first {later new : List Char} (rewrites : Rewrites Respacing later new) :
        Rewrites Respacing (word ++ later) (normalizer.normalizeOperand word ++ new) := by
      rcases normalizer.normalizeOperand_cases word with kept | ⟨hidden, immediate⟩
      · rw [kept]
        exact rewrites.keepAll word
      · exact .replace (Or.inr ⟨hidden, immediate⟩) rewrites
    rw [List.dropWhile_cons_of_neg stays, ← whole, List.map_cons]
    by_cases last : operands (rest.dropWhile fun next => !isSeparator next) = []
    · rw [last, List.map_nil, joined_singleton, ← List.append_nil (normalizer.normalizeOperand _)]
      exact first (.stop _)
    · rw [joined_cons (mt List.map_eq_nil_iff.mp last)]
      -- what is left begins with separators, and with the next operand after them
      have separators : (rest.dropWhile fun next => !isSeparator next).takeWhile isSeparator ≠
          [] := by
        cases left : rest.dropWhile fun next => !isSeparator next with
        | nil =>
          rw [left, operands] at last
          exact absurd rfl last
        | cons next others =>
          have separates := List.head?_dropWhile_not (fun next => !isSeparator next) rest
          rw [left, List.head?_cons] at separates
          rw [List.takeWhile_cons_of_pos ((Bool.not_eq_false' _).mp separates)]
          exact List.cons_ne_nil _ _
      have spaced := Rewrites.replace (Or.inl ⟨rfl, separators,
        fun _ member => List.mem_takeWhile_imp member⟩) inductionHypothesis
      rw [List.takeWhile_append_dropWhile] at spaced
      exact first spaced

end FlowGraph.Normalizer
