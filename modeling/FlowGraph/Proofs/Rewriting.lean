/-
This file is about texts that are rewritten here and there: stretches of a text are
replaced by marks, the characters between them are kept, and what comes last may be
left out. What a rule says about single stretches then holds of whole texts: which
characters can come about, which can only become fewer, and whether texts shrink.
-/

import Mathlib.Data.List.Basic

namespace FlowGraph.Text

/-- Whether a text comes about from another one by replacing stretches as a rule has it. The end of
the text may be left out. -/
inductive Rewrites (rule : List Char → List Char → Prop) : List Char → List Char → Prop
  | stop (rest : List Char) : Rewrites rule rest []
  | keep (character : Char) {rest new : List Char} :
      Rewrites rule rest new → Rewrites rule (character :: rest) (character :: new)
  | replace {old mark rest new : List Char} :
      rule old mark → Rewrites rule rest new → Rewrites rule (old ++ rest) (mark ++ new)

namespace Rewrites

variable {rule : List Char → List Char → Prop} {text new : List Char}

/-! ### Kept stretches -/

theorem keepAll (kept : List Char) (rewrites : Rewrites rule text new) :
    Rewrites rule (kept ++ text) (kept ++ new) := by
  induction kept with
  | nil => exact rewrites
  | cons character rest inductionHypothesis => exact inductionHypothesis.keep character

theorem of_isPrefix (start : new <+: text) : Rewrites rule text new := by
  obtain ⟨rest, rfl⟩ := start
  simpa using (stop rest).keepAll new

/-! ### From rules to texts -/

/-- What holds of all characters of a text holds of the stretches that are replaced. -/
theorem within {Inside : Char → Prop} (inside : ∀ character ∈ text, Inside character)
    (rewrites : Rewrites rule text new) :
    Rewrites (fun old mark => rule old mark ∧ ∀ character ∈ old, Inside character) text new := by
  induction rewrites with
  | stop rest => exact .stop rest
  | keep character _ inductionHypothesis =>
    exact (inductionHypothesis (List.forall_mem_cons.mp inside).2).keep character
  | replace holds _ inductionHypothesis =>
    rw [List.forall_mem_append] at inside
    exact (inductionHypothesis inside.2).replace ⟨holds, inside.1⟩

/-- What holds of all characters of a text and of all marks holds after rewriting. -/
theorem forall_mem {Holds : Char → Prop}
    (marks : ∀ {old mark : List Char}, rule old mark → ∀ character ∈ mark, Holds character)
    (rewrites : Rewrites rule text new) (before : ∀ character ∈ text, Holds character) :
    ∀ character ∈ new, Holds character := by
  induction rewrites with
  | stop => exact fun _ member => nomatch member
  | keep character _ inductionHypothesis =>
    rw [List.forall_mem_cons] at before ⊢
    exact ⟨before.1, inductionHypothesis before.2⟩
  | replace holds _ inductionHypothesis =>
    rw [List.forall_mem_append] at before ⊢
    exact ⟨marks holds, inductionHypothesis before.2⟩

/-- Characters that no mark has are taken away, but never added or moved. -/
theorem filter_sublist {counts : Char → Bool}
    (marks : ∀ {old mark : List Char}, rule old mark → mark.filter counts = [])
    (rewrites : Rewrites rule text new) :
    (new.filter counts).Sublist (text.filter counts) := by
  induction rewrites with
  | stop rest => exact List.nil_sublist _
  | keep character _ inductionHypothesis =>
    rw [List.filter_cons, List.filter_cons]
    split
    · exact inductionHypothesis.cons_cons character
    · exact inductionHypothesis
  | replace holds _ inductionHypothesis =>
    rw [List.filter_append, List.filter_append, marks holds, List.nil_append]
    exact inductionHypothesis.trans (List.sublist_append_right _ _)

/-- A rule that makes stretches shorter makes texts shorter, unless it is not used. -/
theorem eq_or_shorter (shorter : ∀ {old mark : List Char}, rule old mark → mark.length < old.length)
    (rewrites : Rewrites rule text new) : new = text ∨ new.length < text.length := by
  induction rewrites with
  | stop rest =>
    cases rest with
    | nil => exact Or.inl rfl
    | cons => exact Or.inr (Nat.zero_lt_succ _)
  | keep character _ inductionHypothesis =>
    exact inductionHypothesis.imp (congrArg _) Nat.succ_lt_succ
  | replace holds _ inductionHypothesis =>
    have less := shorter holds
    have rest := inductionHypothesis.imp_left (congrArg List.length)
    simp only [List.length_append]
    omega

end Rewrites

end FlowGraph.Text
