/-
This file is about annotations within a line. A text is unannotated if no opening
bracket in it comes before a closing one. Stripping the innermost annotations
leaves such a text as it is and makes any other one shorter, so that stripping them
from the inside out ends with an unannotated text.
-/

import FlowGraph.Normalizer
import FlowGraph.Proofs.Rewriting
import Mathlib.Logic.Function.Iterate

namespace FlowGraph.Normalizer

open Text (Rewrites)

variable {text new : List Char}

/-! ### Unannotated texts -/

/-- Whether a character is an angle bracket. -/
def isBracket (character : Char) : Bool := character == '<' || character == '>'

/-- Whether no opening bracket comes before a closing one. -/
def Unannotated (text : List Char) : Prop :=
  text.Pairwise fun first second => ¬ (first = '<' ∧ second = '>')

/-- Only brackets and their order matter. -/
theorem unannotated_of_filter (brackets : (new.filter isBracket).Sublist (text.filter isBracket))
    (unannotated : Unannotated text) : Unannotated new := by
  have whole (text : List Char) : Unannotated text ↔
      (text.filter isBracket).Pairwise fun first second => ¬ (first = '<' ∧ second = '>') := by
    rw [List.pairwise_filter]
    refine ⟨fun apart => apart.imp fun apart _ _ => apart,
      fun apart => apart.imp fun apart both => ?_⟩
    obtain ⟨rfl, rfl⟩ := both
    exact apart (by decide) (by decide) ⟨rfl, rfl⟩
  exact (whole new).mpr (((whole text).mp unannotated).sublist brackets)

/-- Whether there is an annotation without brackets inside. -/
def Annotated (text : List Char) : Prop :=
  ∃ front inner back, text = front ++ '<' :: (inner ++ '>' :: back) ∧ '<' ∉ inner ∧ '>' ∉ inner

theorem not_annotated_iff : ¬ Annotated text ↔ Unannotated text := by
  constructor
  · intro noAnnotation
    induction text with
    | nil => exact .nil
    | cons character rest inductionHypothesis =>
      have later : Unannotated rest := by
        refine inductionHypothesis fun annotated => noAnnotation ?_
        obtain ⟨front, inner, back, whole, inside⟩ := annotated
        exact ⟨character :: front, inner, back, congrArg (character :: ·) whole, inside⟩
      refine List.pairwise_cons.mpr ⟨fun second member both => noAnnotation ?_, later⟩
      -- up to the first closing bracket no other annotation is opened
      obtain ⟨inner, back, whole, noClosing⟩ := List.eq_append_cons_of_mem (both.2 ▸ member)
      refine ⟨[], inner, back, by rw [both.1, whole, List.nil_append], fun opening => ?_, noClosing⟩
      rw [whole] at later
      exact (List.pairwise_append.mp later).2.2 '<' opening '>' List.mem_cons_self ⟨rfl, rfl⟩
  · rintro unannotated ⟨front, inner, back, rfl, _, _⟩
    have opened := (List.pairwise_append.mp unannotated).2.1
    exact (List.pairwise_cons.mp opened).1 '>' (List.mem_append_right _ List.mem_cons_self)
      ⟨rfl, rfl⟩

/-! ### The reader of annotations -/

/-- What becomes of a text that is read with an annotation open or not. -/
def strippedFrom (opened : Option (List Char)) (text : List Char) : List Char :=
  (text.foldl Stripping.step ⟨[], opened⟩).text

theorem stripInnermost_eq (text : List Char) : stripInnermost text = strippedFrom none text := rfl

theorem step_eq (done : List Char) (opened : Option (List Char)) (character : Char) :
    Stripping.step ⟨done, opened⟩ character =
      ⟨(Stripping.step ⟨[], opened⟩ character).done ++ done,
        (Stripping.step ⟨[], opened⟩ character).opened⟩ := by
  cases opened with
  | none =>
    simp only [Stripping.step]
    split <;> rfl
  | some inner =>
    simp only [Stripping.step]
    split
    · simp
    · split <;> rfl

/-- What was read before stays. -/
theorem text_foldl_step (done : List Char) (opened : Option (List Char)) (text : List Char) :
    (text.foldl Stripping.step ⟨done, opened⟩).text = done.reverse ++ strippedFrom opened text := by
  induction text generalizing done opened with
  | nil => cases opened <;> simp [strippedFrom, Stripping.text]
  | cons character rest inductionHypothesis =>
    rw [strippedFrom, List.foldl_cons, List.foldl_cons, step_eq done, inductionHypothesis,
      inductionHypothesis (Stripping.step ⟨[], opened⟩ character).done, List.reverse_append,
      List.append_assoc]

theorem strippedFrom_none_cons (character : Char) (rest : List Char) :
    strippedFrom none (character :: rest) =
      if character = '<' then strippedFrom (some []) rest
      else character :: strippedFrom none rest := by
  rw [strippedFrom, List.foldl_cons, text_foldl_step]
  simp only [Stripping.step]
  split <;> rfl

theorem strippedFrom_some_cons (inner : List Char) (character : Char) (rest : List Char) :
    strippedFrom (some inner) (character :: rest) =
      if character = '<' then '<' :: inner.reverse ++ strippedFrom (some []) rest
      else if character = '>' then ' ' :: strippedFrom none rest
      else strippedFrom (some (character :: inner)) rest := by
  rw [strippedFrom, List.foldl_cons, text_foldl_step]
  simp only [Stripping.step]
  split
  · simp
  · split <;> rfl

theorem strippedFrom_some_nil (inner : List Char) :
    strippedFrom (some inner) [] = '<' :: inner.reverse := by
  simp [strippedFrom, Stripping.text]

/-! ### Innermost annotations -/

/-- An annotation without brackets inside and the space that replaces it. -/
def Annotation (old new : List Char) : Prop :=
  new = [' '] ∧ ∃ inner, '<' ∉ inner ∧ '>' ∉ inner ∧ old = '<' :: inner ++ ['>']

theorem rewrites_strippedFrom (text : List Char) :
    Rewrites Annotation text (strippedFrom none text) ∧
      ∀ inner, '<' ∉ inner → '>' ∉ inner →
        Rewrites Annotation ('<' :: inner.reverse ++ text) (strippedFrom (some inner) text) := by
  induction text with
  | nil =>
    refine ⟨.stop [], fun inner _ _ => ?_⟩
    rw [strippedFrom_some_nil, List.append_nil]
    exact .of_isPrefix (List.prefix_refl _)
  | cons character rest inductionHypothesis =>
    obtain ⟨closed, opened⟩ := inductionHypothesis
    refine ⟨?_, fun inner noOpening noClosing => ?_⟩
    · rw [strippedFrom_none_cons]
      split
      · subst character
        exact opened [] List.not_mem_nil List.not_mem_nil
      · exact .keep character closed
    · rw [strippedFrom_some_cons]
      split
      · subst character
        exact (opened [] List.not_mem_nil List.not_mem_nil).keepAll ('<' :: inner.reverse)
      · rename_i notOpening
        split
        · subst character
          have whole : '<' :: inner.reverse ++ '>' :: rest =
              ('<' :: inner.reverse ++ ['>']) ++ rest := by simp
          rw [whole]
          exact .replace ⟨rfl, inner.reverse, by rwa [List.mem_reverse],
            by rwa [List.mem_reverse], rfl⟩ closed
        · rename_i notClosing
          have whole : '<' :: inner.reverse ++ character :: rest =
              '<' :: (character :: inner).reverse ++ rest := by simp
          rw [whole]
          exact opened (character :: inner)
            (List.not_mem_cons_of_ne_of_not_mem (Ne.symm notOpening) noOpening)
            (List.not_mem_cons_of_ne_of_not_mem (Ne.symm notClosing) noClosing)

theorem rewrites_stripInnermost (text : List Char) :
    Rewrites Annotation text (stripInnermost text) :=
  (rewrites_strippedFrom text).1

theorem length_stripInnermost_le (text : List Char) :
    (stripInnermost text).length ≤ text.length := by
  have shorter {old new : List Char} (stripped : Annotation old new) :
      new.length < old.length := by
    obtain ⟨rfl, inner, _, _, rfl⟩ := stripped
    simp
  rcases (rewrites_stripInnermost text).eq_or_shorter shorter with same | less
  · exact Nat.le_of_eq (congrArg List.length same)
  · exact Nat.le_of_lt less

/-- Without closing brackets an open annotation stays as it is. -/
theorem strippedFrom_some_of_not_mem (noClosing : '>' ∉ text) (inner : List Char) :
    strippedFrom (some inner) text = '<' :: inner.reverse ++ text := by
  induction text generalizing inner with
  | nil => rw [strippedFrom_some_nil, List.append_nil]
  | cons character rest inductionHypothesis =>
    rw [List.mem_cons, not_or] at noClosing
    obtain ⟨notClosing, later⟩ := noClosing
    rw [strippedFrom_some_cons, if_neg (Ne.symm notClosing), inductionHypothesis later,
      inductionHypothesis later]
    split
    · subst character
      simp
    · simp

/-- An unannotated text stays as it is. -/
theorem stripInnermost_of_unannotated (unannotated : Unannotated text) :
    stripInnermost text = text := by
  rw [stripInnermost_eq]
  induction text with
  | nil => rfl
  | cons character rest inductionHypothesis =>
    obtain ⟨apart, later⟩ := List.pairwise_cons.mp unannotated
    rw [strippedFrom_none_cons, inductionHypothesis later]
    split
    · subst character
      exact strippedFrom_some_of_not_mem (fun closing => apart '>' closing ⟨rfl, rfl⟩) []
    · rfl

theorem length_strippedFrom_some_lt (closing : '>' ∈ text) (inner : List Char) :
    (strippedFrom (some inner) text).length < inner.length + 1 + text.length := by
  induction text generalizing inner with
  | nil => cases closing
  | cons character rest inductionHypothesis =>
    rw [strippedFrom_some_cons]
    split
    · subst character
      have later := inductionHypothesis (List.mem_of_ne_of_mem (by decide) closing) []
      simp only [List.length_append, List.length_cons, List.length_reverse, List.length_nil] at *
      omega
    · split
      · have rest := length_stripInnermost_le rest
        rw [stripInnermost_eq] at rest
        simp only [List.length_cons]
        omega
      · rename_i notClosing
        have later := inductionHypothesis
          (List.mem_of_ne_of_mem (Ne.symm notClosing) closing) (character :: inner)
        simp only [List.length_cons] at *
        omega

/-- A text is unannotated, or stripping makes it shorter. -/
theorem unannotated_or_shorter (text : List Char) :
    Unannotated text ∨ (stripInnermost text).length < text.length := by
  rw [stripInnermost_eq]
  induction text with
  | nil => exact Or.inl .nil
  | cons character rest inductionHypothesis =>
    rw [strippedFrom_none_cons]
    split
    · subst character
      by_cases closing : '>' ∈ rest
      · have shorter := length_strippedFrom_some_lt closing []
        simp only [List.length_nil, List.length_cons] at *
        omega
      · have apart (other : Char) (member : other ∈ rest) : other ≠ '>' := by
          rintro rfl
          exact closing member
        refine Or.inl (List.pairwise_cons.mpr ⟨fun other member both =>
          apart other member both.2, ?_⟩)
        exact List.pairwise_of_forall_mem_list fun _ _ second member both =>
          apart second member both.2
    · rename_i notOpening
      exact inductionHypothesis.imp
        (fun later => List.pairwise_cons.mpr ⟨fun _ _ both => notOpening both.1, later⟩)
        Nat.succ_lt_succ

/-! ### All annotations -/

/-- No annotation is left. -/
theorem unannotated_stripAnnotations (text : List Char) :
    Unannotated (stripAnnotations text) := by
  fun_induction stripAnnotations text with
  | case1 _ _ inductionHypothesis => exact inductionHypothesis
  | case2 text same => exact (unannotated_or_shorter text).resolve_right same

theorem stripAnnotations_of_unannotated (unannotated : Unannotated text) :
    stripAnnotations text = text := by
  rw [stripAnnotations, stripInnermost_of_unannotated unannotated, if_neg (Nat.lt_irrefl _)]

/-- Annotations are stripped in passes, each of which finds one; then none is left. -/
theorem exists_passes (text : List Char) : ∃ passes,
    stripInnermost^[passes] text = stripAnnotations text ∧
      ¬ Annotated (stripAnnotations text) ∧
      ∀ earlier < passes, Annotated (stripInnermost^[earlier] text) := by
  fun_induction stripAnnotations text with
  | case1 text shorter inductionHypothesis =>
    obtain ⟨passes, last, rest⟩ := inductionHypothesis
    refine ⟨passes + 1, last, rest.1, fun earlier before => ?_⟩
    cases earlier with
    | zero =>
      by_contra noAnnotation
      have same := stripInnermost_of_unannotated (not_annotated_iff.mp noAnnotation)
      exact absurd shorter (same ▸ Nat.lt_irrefl _)
    | succ earlier => exact rest.2 earlier (Nat.lt_of_succ_lt_succ before)
  | case2 text same =>
    exact ⟨0, rfl, not_annotated_iff.mpr ((unannotated_or_shorter text).resolve_right same),
      fun earlier before => absurd before (Nat.not_lt_zero earlier)⟩

/-- What stripping innermost annotations keeps is kept until none is left. -/
theorem stripAnnotations_keeps {motive : List Char → Prop}
    (step : ∀ {text new : List Char}, Rewrites Annotation text new → motive text → motive new)
    (before : motive text) : motive (stripAnnotations text) := by
  fun_induction stripAnnotations text with
  | case1 text _ inductionHypothesis =>
    exact inductionHypothesis (step (rewrites_stripInnermost text) before)
  | case2 => exact before

end FlowGraph.Normalizer
