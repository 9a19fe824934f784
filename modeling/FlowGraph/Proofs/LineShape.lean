/-
This file says what a normal form looks like. The tokens of a line are what stands
between separators once quoted texts and annotations are gone. The normal form is
made of one word for each token, with single spaces between them: the token itself,
or the mark of hidden immediates if it is an immediate above the threshold. No word
is empty or has a separator in it, none of them could be hidden again, and no
annotation is left, however deeply annotations were nested.
-/

import FlowGraph.Proofs.Immediates
import FlowGraph.Proofs.Settled

namespace FlowGraph.Normalizer

variable {normalizer : Normalizer} {text word : List Char} {line : String}

/-! ### Tokens -/

/-- The tokens of a line: the stretches without separators of what is left of it. -/
def tokens (line : String) : List (List Char) :=
  ((stripped line.toList).splitOnP isSeparator).filter fun token => !token.isEmpty

theorem operands_eq (text : List Char) :
    operands text = (text.splitOnP isSeparator).filter fun token => !token.isEmpty := by
  fun_induction operands text with
  | case1 => rw [List.splitOnP_nil]; rfl
  | case2 separator rest separates inductionHypothesis =>
    rw [List.splitOnP_cons_eq_if_modifyHead, if_pos separates, inductionHypothesis]
    rfl
  | case3 character rest stays word inductionHypothesis =>
    have whole : character :: rest = word ++ rest.dropWhile (fun next => !isSeparator next) :=
      (congrArg (character :: ·) List.takeWhile_append_dropWhile).symm
    have apart : ∀ other ∈ word, isSeparator other = false := by
      refine List.forall_mem_cons.mpr ⟨Bool.eq_false_iff.mpr stays, fun other member => ?_⟩
      have stays := List.mem_takeWhile_imp member
      rwa [Bool.not_eq_true'] at stays
    rw [whole, inductionHypothesis]
    cases left : rest.dropWhile fun next => !isSeparator next with
    | nil =>
      rw [List.append_nil, List.splitOnP_eq_singleton apart, List.splitOnP_nil]
      rfl
    | cons separator others =>
      have separates := List.head?_dropWhile_not (fun next => !isSeparator next) rest
      rw [left] at separates
      have separates : isSeparator separator = true := (Bool.not_eq_false' _).mp separates
      rw [List.splitOnP_append_cons word others separates, List.splitOnP_eq_singleton apart,
        List.splitOnP_cons_eq_if_modifyHead, if_pos separates]
      rfl

theorem operands_stripped (line : String) : operands (stripped line.toList) = tokens line :=
  operands_eq _

/-- Tokens are made of characters of the line in small letters. -/
theorem mem_of_mem_operands {character : Char} (listed : word ∈ operands text)
    (member : character ∈ word) : character ∈ text := by
  fun_induction operands text with
  | case1 => cases listed
  | case2 separator rest _ inductionHypothesis =>
    exact List.mem_cons_of_mem _ (inductionHypothesis listed)
  | case3 first rest _ begins inductionHypothesis =>
    rcases List.mem_cons.mp listed with rfl | later
    · exact List.cons_subset_cons _ (List.takeWhile_subset _) member
    · exact List.mem_cons_of_mem _
        ((List.dropWhile_sublist _).subset (inductionHypothesis later))

theorem small_of_mem_tokens {token : List Char} (listed : token ∈ tokens line) :
    ∀ character ∈ token, Text.isCapital character = false := by
  rw [← operands_stripped] at listed
  have marks : ∀ character ∈ literalMark ++ [' '], Text.isCapital character = false :=
    fun character member => small_marks character (List.mem_append.mpr
      ((List.mem_append.mp member).imp_right fun space => List.mem_cons.mpr
        (Or.inl (List.mem_singleton.mp space))))
  have small : ∀ character ∈ stripped line.toList, Text.isCapital character = false :=
    forall_mem_stripped marks fun character member => (Text.mem_lowercase member).1
  exact fun character member => small character (mem_of_mem_operands listed member)

/-! ### Words -/

theorem not_isImmediate_immediateMark {size : Nat} : ¬ IsImmediate immediateMark size := by
  intro immediate
  have small : ∀ character ∈ immediateMark, Text.isCapital character = false :=
    fun character member => small_marks character
      (List.mem_append_right _ (List.mem_cons_of_mem _ member))
  have read := (immediate?_eq_some_iff small).mpr immediate
  exact Option.some_ne_none size (read.symm.trans (by decide))

/-- What is kept is not hidden, and neither is the mark. -/
theorem not_hides_normalizeOperand
    (small : ∀ character ∈ word, Text.isCapital character = false) :
    ¬ normalizer.Hides (normalizer.normalizeOperand word) := by
  rcases normalizeOperand_spec normalizer small with ⟨_, hidden⟩ | ⟨stays, kept⟩
  · rw [hidden]
    rintro ⟨_, _, _, immediate, _⟩
    exact not_isImmediate_immediateMark immediate
  · rwa [kept]

/-- The normal form of every line is one word for each token, hidden or kept. -/
theorem normalizeLine_shape (normalizer : Normalizer) (line : String) :
    (∃ passes,
      stripInnermost^[passes] (replaceLiterals (Text.lowercase line.toList)) =
          stripAnnotations (replaceLiterals (Text.lowercase line.toList)) ∧
        ¬ Annotated (stripAnnotations (replaceLiterals (Text.lowercase line.toList))) ∧
        ∀ earlier < passes,
          Annotated (stripInnermost^[earlier] (replaceLiterals (Text.lowercase line.toList)))) ∧
      Unannotated (normalizer.normalizeLine line).toList ∧
      ∃ words : List String, normalizer.normalizeLine line = " ".intercalate words ∧
        (∀ word ∈ words, word ≠ "" ∧
          ∀ character ∈ word.toList, character ≠ ' ' ∧ character ≠ ',' ∧ character ≠ '\t') ∧
        List.Forall₂ (fun token word => (normalizer.Hides token ∧ word = "#immval#") ∨
          (¬ normalizer.Hides token ∧ word.toList = token)) (tokens line) words ∧
        ∀ word ∈ words, ¬ normalizer.Hides word.toList := by
  have form := toList_normalizeLine normalizer line
  have normal := normal_normalForm normalizer line.toList
  have listed {word : String} (member : word ∈ (tokens line).map fun token =>
      String.ofList (normalizer.normalizeOperand token)) :
      ∃ token ∈ tokens line, word.toList = normalizer.normalizeOperand token := by
    obtain ⟨token, there, rfl⟩ := List.mem_map.mp member
    exact ⟨token, there, String.toList_ofList⟩
  refine ⟨exists_passes _, form ▸ normal.unannotated,
    (tokens line).map fun token => String.ofList (normalizer.normalizeOperand token),
    ?_, fun word member => ?_, ?_, fun word member => ?_⟩
  · rw [← String.toList_inj, form, normalForm, operands_stripped, String.toList_intercalate,
      List.map_map]
    congr 1
    exact List.map_congr_left fun token _ => String.toList_ofList.symm
  · obtain ⟨token, there, same⟩ := listed member
    rw [← operands_stripped] at there
    have isWord := word_normalizeOperand normalizer (word_of_mem_operands there)
    refine ⟨?_, fun character inside => ?_⟩
    · rintro rfl
      exact isWord.present same.symm
    · have stays := isWord.noSeparator character (same ▸ inside)
      rw [← Bool.not_eq_true, isSeparator_iff, not_or, not_or] at stays
      exact ⟨stays.2.1, stays.1, stays.2.2⟩
  · rw [List.forall₂_map_right_iff, List.forall₂_same]
    intro token there
    rcases normalizeOperand_spec normalizer (small_of_mem_tokens there) with
      ⟨hides, hidden⟩ | ⟨stays, kept⟩
    · rw [hidden]
      exact Or.inl ⟨hides, rfl⟩
    · rw [kept]
      exact Or.inr ⟨stays, String.toList_ofList⟩
  · obtain ⟨token, there, same⟩ := listed member
    rw [same]
    exact not_hides_normalizeOperand (small_of_mem_tokens there)

end FlowGraph.Normalizer
