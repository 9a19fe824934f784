/-
This file is about quoted texts within a line. A text is unquoted if no quotation
mark in it has a partner. Replacing quoted texts leaves an unquoted text, which has
fewer quotation marks unless it was unquoted before.

Rewriting an unquoted text cannot pair two of its quotation marks, as long as the
stretches that are replaced have no line end, do not end in a backslash and become
plain marks. The argument follows the reader: between two quotation marks it takes
a backslash together with the next character, so it has to be told apart whether
a stretch begins after a backslash.
-/

import FlowGraph.Normalizer
import FlowGraph.Proofs.Rewriting

namespace FlowGraph.Normalizer

open Text (Rewrites)

/-! ### Quotation marks without a partner -/

/-- Whether a character is a quotation mark. -/
def isQuote (character : Char) : Bool := character == '"' || character == '\''

theorem isQuote_iff {character : Char} :
    isQuote character = true ↔ character = '"' ∨ character = '\'' := by
  rw [isQuote, Bool.or_eq_true, beq_iff_eq, beq_iff_eq]

/-- Whether no quotation mark of a text has a partner. -/
def Unquoted : List Char → Prop
  | [] => True
  | character :: rest =>
    (isQuote character = true → afterLiteral? character rest = none) ∧ Unquoted rest

theorem unquoted_append_right {first second : List Char} (unquoted : Unquoted (first ++ second)) :
    Unquoted second := by
  induction first with
  | nil => exact unquoted
  | cons character rest inductionHypothesis => exact inductionHypothesis unquoted.2

/-- Characters without quotation marks do not matter for what comes after them. -/
theorem unquoted_append {plain text : List Char}
    (noQuote : ∀ character ∈ plain, isQuote character = false) (unquoted : Unquoted text) :
    Unquoted (plain ++ text) := by
  induction plain with
  | nil => exact unquoted
  | cons character rest inductionHypothesis =>
    rw [List.forall_mem_cons] at noQuote
    exact ⟨fun quote => (nomatch noQuote.1.symm.trans quote), inductionHypothesis noQuote.2⟩

/-! ### The reader of a quoted text -/

variable {mark other : Char} {text rest after : List Char}

theorem afterLiteral?_escape_eq_none_iff {escaped : Char} :
    afterLiteral? mark ('\\' :: escaped :: rest) = none ↔
      escaped = '\n' ∨ afterLiteral? mark rest = none := by
  rw [afterLiteral?]
  split
  · rename_i lineEnd
    exact iff_of_true rfl (Or.inl lineEnd)
  · rename_i plain
    exact (or_iff_right plain).symm

theorem afterLiteral?_cons_eq_none_iff {character : Char} (plain : character ≠ '\\') :
    afterLiteral? mark (character :: rest) = none ↔
      character ≠ mark ∧ afterLiteral? mark rest = none := by
  have step : afterLiteral? mark (character :: rest) =
      if character = mark then some rest else afterLiteral? mark rest := by
    rw [afterLiteral?.eq_def]
    split <;> simp_all
  rw [step]
  split
  · rename_i closes
    exact iff_of_false (Option.some_ne_none _) fun unclosed => unclosed.1 closes
  · rename_i differs
    exact (and_iff_right differs).symm

/-- The last two cases of the reader are about other characters than backslashes. -/
theorem ne_backslash {character : Char} (noEnd : character = '\\' → rest = [] → False)
    (noEscape : ∀ escaped later, character = '\\' → rest = escaped :: later → False) :
    character ≠ '\\' := by
  intro backslash
  cases rest with
  | nil => exact noEnd backslash rfl
  | cons escaped later => exact noEscape escaped later backslash rfl

/-- A quoted text ends with its mark. -/
theorem exists_body_of_afterLiteral? (found : afterLiteral? mark text = some after) :
    ∃ body, text = body ++ mark :: after := by
  fun_induction afterLiteral? mark text with
  | case1 | case2 | case3 => cases found
  | case4 escaped rest _ inductionHypothesis =>
    obtain ⟨body, rfl⟩ := inductionHypothesis found
    exact ⟨'\\' :: escaped :: body, rfl⟩
  | case5 =>
    cases found
    exact ⟨[], rfl⟩
  | case6 character rest _ _ _ inductionHypothesis =>
    obtain ⟨body, rfl⟩ := inductionHypothesis found
    exact ⟨character :: body, rfl⟩

/-- A quoted text does not matter for another mark, which has no partner in it or after it. -/
theorem afterLiteral?_of_enclosed (enclosed : afterLiteral? other text = some after)
    (unclosed : afterLiteral? mark text = none) : afterLiteral? mark after = none := by
  have different : other ≠ mark := by
    rintro rfl
    cases enclosed.symm.trans unclosed
  fun_induction afterLiteral? other text with
  | case1 | case2 | case3 => cases enclosed
  | case4 escaped rest plain inductionHypothesis =>
    exact inductionHypothesis enclosed
      ((afterLiteral?_escape_eq_none_iff.mp unclosed).resolve_left plain)
  | case5 rest noEnd noEscape =>
    cases enclosed
    exact ((afterLiteral?_cons_eq_none_iff (ne_backslash noEnd noEscape)).mp unclosed).2
  | case6 character rest noEnd noEscape _ inductionHypothesis =>
    exact inductionHypothesis enclosed
      ((afterLiteral?_cons_eq_none_iff (ne_backslash noEnd noEscape)).mp unclosed).2

/-- A stretch without line ends that does not end in a backslash is read as a whole. -/
theorem afterLiteral?_of_append {old : List Char} (noLineEnd : '\n' ∉ old)
    (last : old.getLast? ≠ some '\\') (unclosed : afterLiteral? mark (old ++ rest) = none) :
    afterLiteral? mark rest = none := by
  fun_induction afterLiteral? mark old with
  | case1 => exact unclosed
  | case2 => exact absurd rfl last
  | case3 later => exact absurd (by simp) noLineEnd
  | case4 escaped later plain inductionHypothesis =>
    refine inductionHypothesis (fun member => noLineEnd (by simp [member])) (fun ends => last ?_)
      ((afterLiteral?_escape_eq_none_iff.mp unclosed).resolve_left plain)
    rw [List.getLast?_cons, List.getLast?_cons, ends, Option.getD_some, Option.getD_some]
  | case5 later noEnd noEscape =>
    have closed := (afterLiteral?_cons_eq_none_iff (ne_backslash noEnd noEscape)).mp unclosed
    exact absurd rfl closed.1
  | case6 character later noEnd noEscape _ inductionHypothesis =>
    refine inductionHypothesis (fun member => noLineEnd (by simp [member])) (fun ends => last ?_)
      ((afterLiteral?_cons_eq_none_iff (ne_backslash noEnd noEscape)).mp unclosed).2
    rw [List.getLast?_cons, ends, Option.getD_some]

/-- Whether all characters of a text are plain: neither quotation marks nor backslashes. -/
def Plain (text : List Char) : Prop :=
  ∀ character ∈ text, isQuote character = false ∧ character ≠ '\\'

instance (text : List Char) : Decidable (Plain text) :=
  decidable_of_iff (text.all fun character => !isQuote character && character != '\\')
    (by simp [Plain])

/-- Plain characters are read over. -/
theorem afterLiteral?_plain_append {plain : List Char} (isPlain : Plain plain)
    (quote : isQuote mark = true) :
    afterLiteral? mark (plain ++ text) = none ↔ afterLiteral? mark text = none := by
  induction plain with
  | nil => rfl
  | cons character rest inductionHypothesis =>
    obtain ⟨⟨noQuote, plain⟩, others⟩ := List.forall_mem_cons.mp isPlain
    rw [List.cons_append, afterLiteral?_cons_eq_none_iff plain, inductionHypothesis others]
    refine and_iff_right ?_
    rintro rfl
    cases noQuote.symm.trans quote

/-- Plain characters are read over, also if the first of them comes after a backslash. -/
theorem afterLiteral?_escape_plain_append {plain : List Char} (isPlain : Plain plain)
    (present : plain ≠ []) (quote : isQuote mark = true)
    (unclosed : afterLiteral? mark text = none) :
    afterLiteral? mark ('\\' :: (plain ++ text)) = none := by
  cases plain with
  | nil => exact absurd rfl present
  | cons character rest =>
    exact afterLiteral?_escape_eq_none_iff.mpr (Or.inr ((afterLiteral?_plain_append
      (List.forall_mem_cons.mp isPlain).2 quote).mpr unclosed))

/-! ### Rewriting unquoted texts -/

/-- Whether a stretch may be replaced by a mark without any quotation mark finding a partner. -/
structure Harmless (old new : List Char) : Prop where
  present : old ≠ []
  noLineEnd : '\n' ∉ old
  last : old.getLast? ≠ some '\\'
  newPresent : new ≠ []
  plain : Plain new

variable {rule : List Char → List Char → Prop} {new : List Char}

theorem Harmless.afterLiteral?_of_escape {old new : List Char} (harmless : Harmless old new)
    (unclosed : afterLiteral? mark ('\\' :: (old ++ rest)) = none) :
    afterLiteral? mark rest = none := by
  obtain ⟨present, noLineEnd, last⟩ := harmless
  cases old with
  | nil => exact absurd rfl present
  | cons escaped later =>
    refine afterLiteral?_of_append (fun member => noLineEnd (List.mem_cons_of_mem _ member))
      (fun ends => last ?_) ((afterLiteral?_escape_eq_none_iff.mp unclosed).resolve_left ?_)
    · rw [List.getLast?_cons, ends, Option.getD_some]
    · rintro rfl
      exact noLineEnd List.mem_cons_self

/-- A mark without a partner gets none by rewriting, whether or not the text is read after a
backslash. -/
theorem afterLiteral?_of_rewrites
    (harmless : ∀ {old mark : List Char}, rule old mark → Harmless old mark)
    (rewrites : Rewrites rule text new) (quote : isQuote mark = true) :
    (afterLiteral? mark text = none → afterLiteral? mark new = none) ∧
      (afterLiteral? mark ('\\' :: text) = none → afterLiteral? mark ('\\' :: new) = none) := by
  induction rewrites with
  | stop rest => exact ⟨fun _ => rfl, fun _ => rfl⟩
  | keep character _ inductionHypothesis =>
    refine ⟨fun unclosed => ?_, fun unclosed => ?_⟩
    · by_cases backslash : character = '\\'
      · subst backslash
        exact inductionHypothesis.2 unclosed
      · rw [afterLiteral?_cons_eq_none_iff backslash] at unclosed ⊢
        exact ⟨unclosed.1, inductionHypothesis.1 unclosed.2⟩
    · rw [afterLiteral?_escape_eq_none_iff] at unclosed ⊢
      exact unclosed.imp_right inductionHypothesis.1
  | replace holds _ inductionHypothesis =>
    have allowed := harmless holds
    refine ⟨fun unclosed => ?_, fun unclosed => ?_⟩
    · rw [afterLiteral?_plain_append allowed.plain quote]
      exact inductionHypothesis.1
        (afterLiteral?_of_append allowed.noLineEnd allowed.last unclosed)
    · exact afterLiteral?_escape_plain_append allowed.plain allowed.newPresent quote
        (inductionHypothesis.1 (allowed.afterLiteral?_of_escape unclosed))

/-- Harmless rewriting keeps a text unquoted. -/
theorem unquoted_of_rewrites
    (harmless : ∀ {old mark : List Char}, rule old mark → Harmless old mark)
    (rewrites : Rewrites rule text new) (unquoted : Unquoted text) : Unquoted new := by
  induction rewrites with
  | stop rest => trivial
  | keep character rewrites inductionHypothesis =>
    exact ⟨fun quote => (afterLiteral?_of_rewrites harmless rewrites quote).1 (unquoted.1 quote),
      inductionHypothesis unquoted.2⟩
  | replace holds _ inductionHypothesis =>
    exact unquoted_append (fun character member => ((harmless holds).plain character member).1)
      (inductionHypothesis (unquoted_append_right unquoted))

/-! ### Replacing quoted texts -/

theorem plain_literalMark : Plain literalMark := by decide

/-- A character is the beginning of a quoted text, which is replaced, or it is kept. -/
theorem replaceLiterals_cons (character : Char) (rest : List Char) :
    (∃ after, isQuote character = true ∧ afterLiteral? character rest = some after ∧
      replaceLiterals (character :: rest) = literalMark ++ replaceLiterals after) ∨
      ((isQuote character = true → afterLiteral? character rest = none) ∧
        replaceLiterals (character :: rest) = character :: replaceLiterals rest) := by
  rw [replaceLiterals]
  split
  · rename_i quote
    split
    · rename_i after found
      exact Or.inl ⟨after, isQuote_iff.mpr quote, found, rfl⟩
    · rename_i unclosed
      exact Or.inr ⟨fun _ => unclosed, rfl⟩
  · rename_i noQuote
    exact Or.inr ⟨fun quote => absurd (isQuote_iff.mp quote) noQuote, rfl⟩

theorem replaceLiterals_cons_of_ne {character : Char} (noQuote : isQuote character = false)
    (rest : List Char) :
    replaceLiterals (character :: rest) = character :: replaceLiterals rest := by
  rcases replaceLiterals_cons character rest with ⟨_, quote, _⟩ | ⟨_, kept⟩
  · cases noQuote.symm.trans quote
  · exact kept

/-- An unquoted text stays as it is. -/
theorem replaceLiterals_of_unquoted (unquoted : Unquoted text) : replaceLiterals text = text := by
  induction text with
  | nil => rw [replaceLiterals]
  | cons character rest inductionHypothesis =>
    rcases replaceLiterals_cons character rest with ⟨after, quote, found, _⟩ | ⟨_, kept⟩
    · cases found.symm.trans (unquoted.1 quote)
    · rw [kept, inductionHypothesis unquoted.2]

/-- A quoted text and its replacement. -/
def Literal (old new : List Char) : Prop :=
  new = literalMark ∧ ∃ quote body, isQuote quote = true ∧ old = quote :: body ++ [quote]

theorem rewrites_replaceLiterals (text : List Char) :
    Rewrites Literal text (replaceLiterals text) := by
  fun_induction replaceLiterals text with
  | case1 => exact .stop []
  | case2 quote rest isMark after found inductionHypothesis =>
    obtain ⟨body, rfl⟩ := exists_body_of_afterLiteral? found
    have whole : quote :: (body ++ quote :: after) = (quote :: body ++ [quote]) ++ after := by simp
    rw [whole]
    exact .replace ⟨rfl, quote, body, isQuote_iff.mpr isMark, rfl⟩ inductionHypothesis
  | case3 quote rest _ _ inductionHypothesis => exact .keep quote inductionHypothesis
  | case4 character rest _ inductionHypothesis => exact .keep character inductionHypothesis

/-- A mark without a partner gets none when quoted texts are replaced. -/
theorem afterLiteral?_replaceLiterals (quote : isQuote mark = true)
    (unclosed : afterLiteral? mark text = none) :
    afterLiteral? mark (replaceLiterals text) = none := by
  -- the reader looks two characters ahead, so that the induction is on the length
  induction length : text.length using Nat.strongRecOn generalizing text with
  | _ size inductionHypothesis =>
    cases text with
    | nil => rwa [replaceLiterals]
    | cons character rest =>
      rw [List.length_cons] at length
      by_cases backslash : character = '\\'
      · subst backslash
        rw [replaceLiterals_cons_of_ne (by decide)]
        cases rest with
        | nil => rwa [replaceLiterals]
        | cons escaped later =>
          rw [List.length_cons] at length
          rcases afterLiteral?_escape_eq_none_iff.mp unclosed with rfl | unclosed
          · rw [replaceLiterals_cons_of_ne (by decide)]
            exact afterLiteral?_escape_eq_none_iff.mpr (Or.inl rfl)
          · rcases replaceLiterals_cons escaped later with ⟨after, _, found, same⟩ | ⟨_, kept⟩
            · have shorter := length_afterLiteral? found
              rw [same]
              exact afterLiteral?_escape_plain_append plain_literalMark (by decide) quote
                (inductionHypothesis after.length (by omega)
                  (afterLiteral?_of_enclosed found unclosed) rfl)
            · rw [kept]
              exact afterLiteral?_escape_eq_none_iff.mpr
                (Or.inr (inductionHypothesis later.length (by omega) unclosed rfl))
      · obtain ⟨differs, unclosed⟩ := (afterLiteral?_cons_eq_none_iff backslash).mp unclosed
        rcases replaceLiterals_cons character rest with ⟨after, _, found, same⟩ | ⟨_, kept⟩
        · have shorter := length_afterLiteral? found
          rw [same, afterLiteral?_plain_append plain_literalMark quote]
          exact inductionHypothesis after.length (by omega)
            (afterLiteral?_of_enclosed found unclosed) rfl
        · rw [kept, afterLiteral?_cons_eq_none_iff backslash]
          exact ⟨differs, inductionHypothesis rest.length (by omega) unclosed rfl⟩

/-- Replacing quoted texts leaves an unquoted text. -/
theorem unquoted_replaceLiterals (text : List Char) : Unquoted (replaceLiterals text) := by
  fun_induction replaceLiterals text with
  | case1 => trivial
  | case2 quote rest isMark after found inductionHypothesis =>
    exact unquoted_append (fun character member => (plain_literalMark character member).1)
      inductionHypothesis
  | case3 quote rest isMark unclosed inductionHypothesis =>
    exact ⟨fun isMark => afterLiteral?_replaceLiterals isMark unclosed, inductionHypothesis⟩
  | case4 character rest noMark inductionHypothesis =>
    exact ⟨fun quote => absurd (isQuote_iff.mp quote) noMark, inductionHypothesis⟩

/-- A text is unquoted, or replacing its quoted texts takes quotation marks away. -/
theorem unquoted_or_fewer_quotes (text : List Char) : Unquoted text ∨
    ((replaceLiterals text).filter isQuote).length < (text.filter isQuote).length := by
  have marks {old mark : List Char} (literal : Literal old mark) : mark.filter isQuote = [] := by
    rw [literal.1]
    decide
  fun_induction replaceLiterals text with
  | case1 => exact Or.inl trivial
  | case2 quote rest isMark after found inductionHypothesis =>
    obtain ⟨body, rfl⟩ := exists_body_of_afterLiteral? found
    have fewer := ((rewrites_replaceLiterals after).filter_sublist marks).length_le
    have none : literalMark.filter isQuote = [] := by decide
    refine Or.inr ?_
    rw [List.filter_append, none, List.filter_cons, if_pos (isQuote_iff.mpr isMark),
      List.filter_append, List.filter_cons, if_pos (isQuote_iff.mpr isMark)]
    simp only [List.length_append, List.length_cons, List.length_nil]
    omega
  | case3 quote rest isMark unclosed inductionHypothesis =>
    rw [List.filter_cons, if_pos (isQuote_iff.mpr isMark), List.filter_cons,
      if_pos (isQuote_iff.mpr isMark)]
    exact inductionHypothesis.imp (fun unquoted => ⟨fun _ => unclosed, unquoted⟩) Nat.succ_lt_succ
  | case4 character rest noMark inductionHypothesis =>
    have noQuote : ¬ isQuote character = true := fun quote => noMark (isQuote_iff.mp quote)
    rw [List.filter_cons, if_neg noQuote, List.filter_cons, if_neg noQuote]
    exact inductionHypothesis.imp_left fun unquoted => ⟨fun quote => absurd quote noQuote, unquoted⟩

end FlowGraph.Normalizer
