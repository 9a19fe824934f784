/-
This file proves that turning a text to small letters leaves no capital letter, so
that doing it again changes nothing. What a capital letter is stands in a table of
runs, each of which maps a stretch of code points to another one. No stretch of
small letters meets one of capital letters, except where both take every other
code point and thus stay apart. That is checked run by run, so that no letter has
to be looked at.

Blanks are no letters: none is changed and none is made.
-/

import FlowGraph.Text.Blank
import FlowGraph.Text.Case

namespace FlowGraph.Text

/-! ### The table -/

/-- Whether a code point is that of a capital letter. -/
def isCapitalCode (code : Nat) : Bool :=
  code == 'İ'.toNat || capitalRuns.any fun run => (run.small? code).isSome

/-- Whether a character is a capital letter. -/
def isCapital (character : Char) : Bool := isCapitalCode character.toNat

theorem isCapitalCode_eq_false_iff {code : Nat} : isCapitalCode code = false ↔
    code ≠ 'İ'.toNat ∧ ∀ run ∈ capitalRuns, run.small? code = none := by
  rw [isCapitalCode, Bool.or_eq_false_iff, beq_eq_false_iff_ne, List.any_eq_false]
  simp only [Bool.not_eq_true, Option.isSome_eq_false_iff, Option.isNone_iff_eq_none]

namespace CaseRun

theorem small?_eq_some_iff {run : CaseRun} {code small : Nat} :
    run.small? code = some small ↔
      (run.first ≤ code ∧ code ≤ run.last ∧ (code - run.first) % run.stride = 0) ∧
        run.image + (code - run.first) = small := by
  rw [small?, Option.ite_none_right_eq_some, Option.some.injEq]

/-- Whether the small letters of a run keep away from a range. -/
def avoids (run : CaseRun) (first last : Nat) : Bool :=
  Nat.blt (run.image + (run.last - run.first)) first || Nat.blt last run.image

theorem outside_of_avoids {run : CaseRun} {first last code small : Nat}
    (apart : run.avoids first last = true) (found : run.small? code = some small) :
    ¬ (first ≤ small ∧ small ≤ last) := by
  obtain ⟨⟨_, below, _⟩, rfl⟩ := small?_eq_some_iff.mp found
  rw [avoids, Bool.or_eq_true, Nat.blt_eq, Nat.blt_eq] at apart
  omega

/-- Whether the small letters of a run are no capital letters of another one: they lie elsewhere,
or both take every other code point and begin at different ones. -/
def apartFrom (run other : CaseRun) : Bool :=
  run.avoids other.first other.last ||
    (other.stride == 2 && (run.stride == 2 || run.first == run.last) &&
      (run.image + other.first) % 2 == 1)

theorem small?_eq_none_of_apartFrom {run other : CaseRun} {code small : Nat}
    (apart : run.apartFrom other = true) (found : run.small? code = some small) :
    other.small? small = none := by
  rw [Option.eq_none_iff_forall_ne_some]
  intro image again
  obtain ⟨⟨least, greatest, distance⟩, _⟩ := small?_eq_some_iff.mp again
  simp only [apartFrom, Bool.or_eq_true, Bool.and_eq_true, beq_iff_eq] at apart
  rcases apart with away | ⟨⟨otherStride, stride⟩, begins⟩
  · exact outside_of_avoids away found ⟨least, greatest⟩
  · obtain ⟨⟨above, below, own⟩, rfl⟩ := small?_eq_some_iff.mp found
    rw [otherStride] at distance
    rcases stride with stride | single
    · rw [stride] at own
      omega
    · omega

end CaseRun

/-- No small letter of any run is a capital letter or a blank. -/
theorem capitalRuns_apart :
    capitalRuns.all (fun run => capitalRuns.all run.apartFrom &&
      run.avoids 'İ'.toNat 'İ'.toNat &&
      blankRanges.all fun range => run.avoids range.1 range.2) = true := by
  decide +kernel

theorem small?_spec {run : CaseRun} (member : run ∈ capitalRuns) {code small : Nat}
    (found : run.small? code = some small) :
    isCapitalCode small = false ∧
      ∀ range ∈ blankRanges, ¬ (range.1 ≤ small ∧ small ≤ range.2) := by
  have apart := List.all_eq_true.mp capitalRuns_apart run member
  rw [Bool.and_eq_true, Bool.and_eq_true, List.all_eq_true, List.all_eq_true] at apart
  obtain ⟨⟨others, dotted⟩, blanks⟩ := apart
  refine ⟨isCapitalCode_eq_false_iff.mpr ⟨?_, fun other otherMember =>
    CaseRun.small?_eq_none_of_apartFrom (others other otherMember) found⟩,
    fun range rangeMember => CaseRun.outside_of_avoids (blanks range rangeMember) found⟩
  rintro rfl
  exact CaseRun.outside_of_avoids dotted found ⟨Nat.le_refl _, Nat.le_refl _⟩

/-! ### Single characters -/

/-- The letters of the first 128 characters are the first run of the table. -/
theorem capitalRuns_ascii : ∃ others, capitalRuns = ⟨0x41, 0x5a, 1, 0x61⟩ :: others ∧
    others.all (fun run => Nat.blt 0x7f run.first) = true :=
  ⟨capitalRuns.tail, rfl, by decide +kernel⟩

/-- Letters of the first 128 characters turn small as the table has it. -/
theorem toLower_spec {character : Char} (ascii : character.toNat < 0x80) :
    (∃ run ∈ capitalRuns, ∃ small, run.small? character.toNat = some small ∧
      character.toLower = Char.ofNat small) ∨
      (character.toLower = character ∧ isCapital character = false) := by
  obtain ⟨others, table, beyond⟩ := capitalRuns_ascii
  by_cases letter : 0x41 ≤ character.toNat ∧ character.toNat ≤ 0x5a
  · refine Or.inl ⟨⟨0x41, 0x5a, 1, 0x61⟩, table ▸ List.mem_cons_self, _,
      CaseRun.small?_eq_some_iff.mpr ⟨⟨letter.1, letter.2, Nat.mod_one _⟩, rfl⟩, ?_⟩
    have alphabet : ∀ place : Fin 26,
        (Char.ofNat (0x41 + place)).toLower = Char.ofNat (0x61 + place) := by decide
    have here := alphabet ⟨character.toNat - 0x41, by omega⟩
    dsimp only at here
    rwa [Nat.add_sub_cancel' letter.1, Char.ofNat_toNat] at here
  · refine Or.inr ⟨dif_neg letter, isCapitalCode_eq_false_iff.mpr ⟨fun same => ?_,
      fun run member => Option.eq_none_iff_forall_ne_some.mpr fun small found => ?_⟩⟩
    · rw [same] at ascii
      exact absurd ascii (by decide)
    · obtain ⟨⟨least, greatest, _⟩, _⟩ := CaseRun.small?_eq_some_iff.mp found
      rw [table, List.mem_cons] at member
      rcases member with rfl | other
      · exact letter ⟨least, greatest⟩
      · have above := Nat.blt_eq.mp (List.all_eq_true.mp beyond run other)
        omega

/-- The character of a code point has it, unless there is no such character. -/
theorem toNat_ofNat (code : Nat) :
    (Char.ofNat code).toNat = code ∨ Char.ofNat code = '\x00' := by
  by_cases valid : code.isValidChar
  · exact Or.inl (congrArg Char.toNat (dif_pos valid))
  · exact Or.inr (dif_neg valid)

/-- What becomes of a letter of the table: a character that is neither a capital letter nor a
blank. -/
theorem ofNat_small {run : CaseRun} (member : run ∈ capitalRuns) {code small : Nat}
    (found : run.small? code = some small) :
    isCapital (Char.ofNat small) = false ∧ isBlank (Char.ofNat small) = false := by
  obtain ⟨noCapital, noBlank⟩ := small?_spec member found
  rcases toNat_ofNat small with same | zero
  · rw [isCapital, ← Bool.not_eq_true (isBlank _), isBlank, inRanges_eq_true, same]
    exact ⟨noCapital, fun ⟨range, rangeMember, inside⟩ => noBlank range rangeMember inside⟩
  · rw [zero]
    exact ⟨by decide +kernel, by decide⟩

theorem smallLetter_spec (character : Char) :
    (isCapital (smallLetter character) = false ∧ isBlank (smallLetter character) = false) ∨
      (smallLetter character = character ∧
        (character ≠ 'İ' → isCapital character = false)) := by
  unfold smallLetter
  cases found : capitalRuns.findSome? fun run => run.small? character.toNat with
  | some small =>
    obtain ⟨run, member, image⟩ := List.exists_of_findSome?_eq_some found
    exact Or.inl (ofNat_small member image)
  | none =>
    refine Or.inr ⟨rfl, fun plain => isCapitalCode_eq_false_iff.mpr
      ⟨fun same => plain (Char.toNat_inj.mp same), List.findSome?_eq_none_iff.mp found⟩⟩

/-- The letters of the two exceptions. -/
theorem small_exceptions {letter : Char} (member : letter ∈ ['ς', 'σ', 'i', '\u0307']) :
    isCapital letter = false ∧ isBlank letter = false := by
  have small : (['ς', 'σ', 'i', '\u0307'].all fun letter =>
      !isCapital letter && !isBlank letter) = true := by decide +kernel
  have here := List.all_eq_true.mp small letter member
  rwa [Bool.and_eq_true, Bool.not_eq_true', Bool.not_eq_true'] at here

/-- A character that comes about is no capital letter, and if it is a blank it was there before. -/
theorem small_of_mem_lowercaseAt {before after : List Char} {character small : Char}
    (member : small ∈ lowercaseAt before character after) :
    isCapital small = false ∧ (isBlank small = true → small = character) := by
  have fresh (spec : isCapital small = false ∧ isBlank small = false) :
      isCapital small = false ∧ (isBlank small = true → small = character) :=
    ⟨spec.1, fun blank => nomatch spec.2.symm.trans blank⟩
  unfold lowercaseAt at member
  split at member
  · refine fresh (small_exceptions ?_)
    split at member
    · exact List.mem_cons.mpr (Or.inl (List.mem_singleton.mp member))
    · exact List.mem_cons_of_mem _ (List.mem_cons.mpr (Or.inl (List.mem_singleton.mp member)))
  · split at member
    · exact fresh (small_exceptions
        (List.mem_cons_of_mem _ (List.mem_cons_of_mem _ member)))
    · rename_i plain
      split at member
      · rename_i ascii
        rw [List.mem_singleton] at member
        subst member
        rcases toLower_spec ascii with ⟨run, listed, code, image, same⟩ | ⟨same, noCapital⟩
        · exact fresh (same ▸ ofNat_small listed image)
        · rw [same]
          exact ⟨noCapital, fun _ => rfl⟩
      · rw [List.mem_singleton] at member
        subst member
        rcases smallLetter_spec character with letter | ⟨same, noCapital⟩
        · exact fresh letter
        · rw [same]
          exact ⟨noCapital plain, fun _ => rfl⟩

theorem lowercaseAt_of_small (before after : List Char) {character : Char}
    (small : isCapital character = false) :
    lowercaseAt before character after = [character] := by
  unfold lowercaseAt
  rw [if_neg, if_neg]
  · split
    · rename_i ascii
      rcases toLower_spec ascii with ⟨run, listed, code, image, _⟩ | ⟨same, _⟩
      · rw [(isCapitalCode_eq_false_iff.mp small).2 run listed] at image
        cases image
      · rw [same]
    · have none := (isCapitalCode_eq_false_iff.mp small).2
      rw [smallLetter, List.findSome?_eq_none_iff.mpr none]
  · rintro rfl
    exact absurd small (by decide +kernel)
  · rintro rfl
    exact absurd small (by decide +kernel)

/-! ### Texts -/

theorem mem_lowercaseFrom {before text : List Char} {small : Char}
    (member : small ∈ lowercaseFrom before text) :
    isCapital small = false ∧ (isBlank small = true → small ∈ text) := by
  induction text generalizing before with
  | nil => cases member
  | cons character rest inductionHypothesis =>
    rw [lowercaseFrom, List.mem_append] at member
    rcases member with here | later
    · obtain ⟨noCapital, blank⟩ := small_of_mem_lowercaseAt here
      exact ⟨noCapital, fun isBlank => blank isBlank ▸ List.mem_cons_self⟩
    · obtain ⟨noCapital, blank⟩ := inductionHypothesis later
      exact ⟨noCapital, fun isBlank => List.mem_cons_of_mem _ (blank isBlank)⟩

/-- A text in small letters has no capital letter, and no blank that was not there before. -/
theorem mem_lowercase {text : List Char} {small : Char} (member : small ∈ lowercase text) :
    isCapital small = false ∧ (isBlank small = true → small ∈ text) :=
  mem_lowercaseFrom member

theorem lowercaseFrom_of_small {before text : List Char}
    (small : ∀ character ∈ text, isCapital character = false) :
    lowercaseFrom before text = text := by
  induction text generalizing before with
  | nil => rfl
  | cons character rest inductionHypothesis =>
    rw [List.forall_mem_cons] at small
    rw [lowercaseFrom, lowercaseAt_of_small _ _ small.1, inductionHypothesis small.2,
      List.singleton_append]

/-- A text without capital letters stays as it is. -/
theorem lowercase_of_small {text : List Char}
    (small : ∀ character ∈ text, isCapital character = false) : lowercase text = text :=
  lowercaseFrom_of_small small

end FlowGraph.Text
