/-
This file says when normalizing a line again changes nothing. A normal form is
settled if no blank stands at its ends and none of its quotation marks has a
partner, and exactly the settled ones are normal forms of themselves. Not all are:
trimming comes before separators are dropped, so that a blank behind a leading comma
stays, and removing an annotation with a line end in it may bring two quotation
marks together. The second pass mends both, since all that it can find is quoted
texts and blanks at the ends. Lines whose only blanks are spaces and tabs are
settled after the first one.

A graph that records a normalizer is left alone by it. What is left alone is what
would come out of another pass exactly if all lines are settled.
-/

import FlowGraph.Proofs.Annotations
import FlowGraph.Proofs.SmallLetters
import FlowGraph.Proofs.Words

namespace FlowGraph

namespace Normalizer

open Text (Rewrites Solid)

variable {normalizer : Normalizer} {text word : List Char} {words : List (List Char)}

/-! ### The stages -/

/-- The normal form of a line, as characters. -/
def normalForm (normalizer : Normalizer) (text : List Char) : List Char :=
  joined ((operands (stripped text)).map normalizer.normalizeOperand)

theorem toList_normalizeLine (normalizer : Normalizer) (line : String) :
    (normalizer.normalizeLine line).toList = normalizer.normalForm line.toList :=
  String.toList_ofList

theorem trim_sublist (text : List Char) : (Text.trim text).Sublist text := by
  obtain ⟨front, back, whole, _⟩ := Text.exists_trim_eq text
  exact List.IsInfix.sublist ⟨front, back, whole⟩

/-- Every character of a stripped line is one of the line in small letters or one of a mark. -/
theorem forall_mem_stripped {Holds : Char → Prop}
    (marks : ∀ character ∈ literalMark ++ [' '], Holds character)
    (lowered : ∀ character ∈ Text.lowercase text, Holds character) :
    ∀ character ∈ stripped text, Holds character := by
  obtain ⟨literal, space⟩ := List.forall_mem_append.mp marks
  have replaced := (rewrites_replaceLiterals (Text.lowercase text)).forall_mem
    (fun holds => holds.1 ▸ literal) lowered
  have kept := stripAnnotations_keeps
    (motive := fun text => ∀ character ∈ text, Holds character)
    (fun rewrites => rewrites.forall_mem fun holds => by
      rw [holds.1]
      exact space) replaced
  exact fun character member => kept character ((trim_sublist _).subset member)

/-- Every character of a normal form is one of the line in small letters or one of a mark. -/
theorem forall_mem_normalForm {Holds : Char → Prop}
    (marks : ∀ character ∈ literalMark ++ ' ' :: immediateMark, Holds character)
    (lowered : ∀ character ∈ Text.lowercase text, Holds character) :
    ∀ character ∈ normalizer.normalForm text, Holds character := by
  obtain ⟨literal, space, immediate⟩ := (List.forall_mem_append.trans
    (and_congr_right fun _ => List.forall_mem_cons)).mp marks
  have stripped := forall_mem_stripped
    (List.forall_mem_append.mpr ⟨literal, List.forall_mem_singleton.mpr space⟩) lowered
  refine (rewrites_joined normalizer _).forall_mem (fun respacing => ?_)
    fun character member => stripped character ((List.dropWhile_sublist _).subset member)
  rcases respacing with ⟨rfl, _⟩ | ⟨rfl, _⟩
  · exact List.forall_mem_singleton.mpr space
  · exact immediate

/-- Joining takes characters away that no mark has. -/
theorem filter_joined_sublist (counts : Char → Bool) (space : counts ' ' = false)
    (immediate : immediateMark.filter counts = []) (normalizer : Normalizer) (text : List Char) :
    ((joined ((operands text).map normalizer.normalizeOperand)).filter counts).Sublist
      (text.filter counts) := by
  refine ((rewrites_joined normalizer text).filter_sublist fun respacing => ?_).trans
    ((List.dropWhile_sublist _).filter _)
  rcases respacing with ⟨rfl, _⟩ | ⟨rfl, _⟩
  · rw [List.filter_singleton, space]
    rfl
  · exact immediate

/-! ### Normal forms -/

/-- What all normal forms have: small letters, no annotations, and words of a normal form that
single spaces separate. -/
structure Normal (normalizer : Normalizer) (text : List Char) : Prop where
  small : ∀ character ∈ text, Text.isCapital character = false
  unannotated : Unannotated text
  words : ∃ words, (∀ word ∈ words, Word word ∧ normalizer.normalizeOperand word = word) ∧
    joined words = text

theorem small_marks : ∀ character ∈ literalMark ++ ' ' :: immediateMark,
    Text.isCapital character = false := by
  have small : (literalMark ++ ' ' :: immediateMark).all (fun character =>
      !Text.isCapital character) = true := by decide +kernel
  intro character member
  rw [← Bool.not_eq_true']
  exact List.all_eq_true.mp small character member

theorem normal_normalForm (normalizer : Normalizer) (text : List Char) :
    normalizer.Normal (normalizer.normalForm text) where
  small := forall_mem_normalForm small_marks fun _ member => (Text.mem_lowercase member).1
  unannotated := unannotated_of_filter
    ((filter_joined_sublist isBracket (by decide) (by decide) normalizer _).trans
      ((trim_sublist _).filter isBracket)) (unannotated_stripAnnotations _)
  words := by
    refine ⟨_, fun word member => ?_, rfl⟩
    obtain ⟨operand, listed, rfl⟩ := List.mem_map.mp member
    exact ⟨word_normalizeOperand normalizer (word_of_mem_operands listed),
      normalizer.normalizeOperand_normalizeOperand operand⟩

namespace Normal

/-- All that another pass can find in a normal form is quoted texts and blanks at its ends. -/
theorem normalForm_eq (normal : normalizer.Normal text) : normalizer.normalForm text =
    joined ((operands (Text.trim (replaceLiterals text))).map normalizer.normalizeOperand) := by
  have unannotated : Unannotated (replaceLiterals text) := by
    refine unannotated_of_filter ((rewrites_replaceLiterals text).filter_sublist fun literal => ?_)
      normal.unannotated
    rw [literal.1]
    decide
  rw [normalForm, stripped, Text.lowercase_of_small normal.small,
    stripAnnotations_of_unannotated unannotated]

/-- The ends of a normal form are no separators. -/
theorem ends (normal : normalizer.Normal text) :
    (∀ character ∈ text.head?, isSeparator character = false) ∧
      ∀ character ∈ text.getLast?, isSeparator character = false := by
  obtain ⟨words, areWords, rfl⟩ := normal.words
  have present (word : List Char) (member : word ∈ words) : word ≠ [] :=
    (areWords word member).1.present
  refine ⟨fun character first => ?_, fun character last => ?_⟩
  · rw [head?_joined present] at first
    obtain ⟨word, there, inside⟩ := Option.bind_eq_some_iff.mp first
    exact (areWords word (List.mem_of_head? there)).1.noSeparator _ (List.mem_of_head? inside)
  · rw [getLast?_joined present] at last
    obtain ⟨word, there, inside⟩ := Option.bind_eq_some_iff.mp last
    exact (areWords word (List.mem_of_getLast? there)).1.noSeparator _
      (List.mem_of_getLast? inside)

theorem noComma (normal : normalizer.Normal text) : ∀ character ∈ text, character ≠ ',' := by
  obtain ⟨words, areWords, rfl⟩ := normal.words
  rintro _ member rfl
  rcases mem_joined member with space | ⟨word, listed, inside⟩
  · exact absurd space (by decide)
  · exact absurd ((areWords word listed).1.noSeparator _ inside) (by decide)

end Normal

/-! ### Settled texts -/

/-- Whether a text has no blanks at its ends and no quoted text. -/
structure Settled (text : List Char) : Prop where
  trimmed : Text.trim text = text
  unquoted : Unquoted text

instance decidableUnquoted : ∀ text : List Char, Decidable (Unquoted text)
  | [] => isTrue trivial
  | character :: rest =>
    have := decidableUnquoted rest
    inferInstanceAs (Decidable ((isQuote character = true → afterLiteral? character rest = none) ∧
      Unquoted rest))

instance (text : List Char) : Decidable (Settled text) :=
  decidable_of_iff (Text.trim text = text ∧ Unquoted text)
    ⟨fun both => ⟨both.1, both.2⟩, fun settled => ⟨settled.trimmed, settled.unquoted⟩⟩

theorem isSeparator_iff {character : Char} :
    isSeparator character = true ↔ character = ',' ∨ character = ' ' ∨ character = '\t' := by
  simp only [isSeparator, Bool.or_eq_true, beq_iff_eq, or_assoc]

/-- Whether a character is a blank that does not separate words. -/
def isOddBlank (character : Char) : Bool := Text.isBlank character && !isSeparator character

/-- A text with no fewer odd blanks after trimming has no blanks at its ends, if separators stand
there neither. -/
theorem trim_of_filter (noSeparator : (∀ character ∈ text.head?, isSeparator character = false) ∧
      ∀ character ∈ text.getLast?, isSeparator character = false)
    (kept : (text.filter isOddBlank).length ≤ ((Text.trim text).filter isOddBlank).length) :
    Text.trim text = text := by
  obtain ⟨front, back, whole, blankFront, blankBack⟩ := Text.exists_trim_eq text
  have none : front.filter isOddBlank = [] ∧ back.filter isOddBlank = [] := by
    have lengths := congrArg (fun text => (List.filter isOddBlank text).length) whole
    simp only [List.filter_append, List.length_append] at lengths
    rw [← List.length_eq_zero_iff, ← List.length_eq_zero_iff]
    omega
  rw [List.filter_eq_nil_iff, List.filter_eq_nil_iff] at none
  have odd {character : Char} (blank : Text.isBlank character = true)
      (stays : isSeparator character = false) : isOddBlank character = true := by
    rw [isOddBlank, blank, stays]
    rfl
  have noFront : front = [] := by
    refine List.head?_eq_none_iff.mp
      (Option.eq_none_iff_forall_ne_some.mpr fun character first => ?_)
    have member := List.mem_of_head? first
    refine none.1 character member (odd (blankFront character member) (noSeparator.1 character ?_))
    rw [← whole, List.append_assoc, List.head?_append, first]
    rfl
  have noBack : back = [] := by
    refine List.getLast?_eq_none_iff.mp
      (Option.eq_none_iff_forall_ne_some.mpr fun character last => ?_)
    have member := List.mem_of_getLast? last
    refine none.2 character member (odd (blankBack character member) (noSeparator.2 character ?_))
    rw [← whole, List.getLast?_append, last]
    rfl
  rwa [noFront, noBack, List.nil_append, List.append_nil] at whole

/-- The normal forms of themselves are those that are settled. -/
theorem Normal.normalForm_eq_self_iff (normal : normalizer.Normal text) :
    normalizer.normalForm text = text ↔ Settled text := by
  constructor
  · intro fixed
    rw [normal.normalForm_eq] at fixed
    have unquoted : Unquoted text := by
      refine (unquoted_or_fewer_quotes text).resolve_right fun fewer => ?_
      have quotes := ((filter_joined_sublist isQuote (by decide) (by decide) normalizer _).trans
        ((trim_sublist (replaceLiterals text)).filter isQuote)).length_le
      rw [fixed] at quotes
      omega
    rw [replaceLiterals_of_unquoted unquoted] at fixed
    have blanks := (filter_joined_sublist isOddBlank (by decide) (by decide) normalizer
      (Text.trim text)).length_le
    rw [fixed] at blanks
    exact ⟨trim_of_filter normal.ends blanks, unquoted⟩
  · intro settled
    obtain ⟨words, areWords, same⟩ := normal.words
    have kept : words.map normalizer.normalizeOperand = words :=
      (List.map_congr_left fun word member => (areWords word member).2).trans (List.map_id' _)
    rw [normal.normalForm_eq, replaceLiterals_of_unquoted settled.unquoted, settled.trimmed,
      ← same, operands_joined fun word member => (areWords word member).1, kept]

/-! ### Ends of joined words -/

/-- An end of a text that is neither a blank nor a separator stays such an end when words are
joined. The argument is the same at both ends, given what they have in common. -/
theorem solid_joined {ending : List Char → Option Char}
    {outermost : List (List Char) → Option (List Char)}
    (joins : ∀ {words}, (∀ word ∈ words, word ≠ []) →
      ending (joined words) = (outermost words).bind ending)
    (maps : ∀ {words} change, outermost (words.map change) = (outermost words).map change)
    (finds : ∀ {character}, character ∈ ending text → isSeparator character = false →
      ∃ word ∈ outermost (operands text), character ∈ ending word)
    (ends : outermost (operands text) ≠ none → ending text ≠ none)
    (mark : Solid (ending immediateMark)) (solid : Solid (ending text))
    (stays : ∀ character ∈ ending text, isSeparator character = false) :
    Solid (ending (joined ((operands text).map normalizer.normalizeOperand))) := by
  have present : ∀ word ∈ (operands text).map normalizer.normalizeOperand, word ≠ [] := by
    intro word member
    obtain ⟨operand, listed, rfl⟩ := List.mem_map.mp member
    exact (word_normalizeOperand normalizer (word_of_mem_operands listed)).present
  intro character there
  rw [joins present, maps] at there
  obtain ⟨_, replaced, inside⟩ := Option.bind_eq_some_iff.mp there
  obtain ⟨operand, outer, rfl⟩ := Option.map_eq_some_iff.mp replaced
  obtain ⟨last, lastThere⟩ := Option.ne_none_iff_exists'.mp
    (ends fun none => nomatch outer.symm.trans none)
  obtain ⟨again, found, begins⟩ := finds lastThere (stays last lastThere)
  obtain rfl := Option.some.inj (found.symm.trans outer)
  rcases normalizer.normalizeOperand_cases again with kept | ⟨hidden, _⟩
  · rw [kept, Option.mem_def.mp begins, Option.some.injEq] at inside
    exact inside ▸ solid last lastThere
  · rw [hidden] at inside
    exact mark character inside

/-- A text is not trimmed after its words were joined, if its ends are neither blanks nor
separators. -/
theorem trim_joined (first : Solid text.head?) (last : Solid text.getLast?)
    (stays : (∀ character ∈ text.head?, isSeparator character = false) ∧
      ∀ character ∈ text.getLast?, isSeparator character = false) :
    Text.trim (joined ((operands text).map normalizer.normalizeOperand)) =
      joined ((operands text).map normalizer.normalizeOperand) := by
  have empty (none : text = []) : operands text = [] := by rw [none, operands]
  refine Text.trim_of_solid
    (solid_joined head?_joined (fun _ => List.head?_map) exists_head?_operands
      (fun some none => some ?_) ?_ first stays.1)
    (solid_joined getLast?_joined (fun _ => List.getLast?_map) exists_getLast?_operands
      (fun some none => some ?_) ?_ last stays.2)
  · rw [empty (List.head?_eq_none_iff.mp none), List.head?_nil]
  · decide
  · rw [empty (List.getLast?_eq_none_iff.mp none), List.getLast?_nil]
  · decide

/-! ### The second pass -/

theorem unquoted_trim (unquoted : Unquoted text) : Unquoted (Text.trim text) := by
  obtain ⟨front, back, whole, _⟩ := Text.exists_trim_eq text
  rw [← whole, List.append_assoc] at unquoted
  have never {old mark : List Char} (holds : False) : Harmless old mark := holds.elim
  exact unquoted_of_rewrites never (.of_isPrefix (List.prefix_append _ back))
    (unquoted_append_right unquoted)

theorem unquoted_joined (unquoted : Unquoted text) :
    Unquoted (joined ((operands text).map normalizer.normalizeOperand)) := by
  rw [← List.takeWhile_append_dropWhile (p := isSeparator) (l := text)] at unquoted
  exact unquoted_of_rewrites harmless_of_respacing (rewrites_joined normalizer text)
    (unquoted_append_right unquoted)

/-- Another pass over a normal form settles it. -/
theorem Normal.settled_normalForm (normal : normalizer.Normal text) :
    Settled (normalizer.normalForm text) := by
  -- neither the form nor the marks of quoted texts have commas, so that a character at an end of
  -- the trimmed text, which is no blank, is no separator either
  have noComma : ∀ character ∈ replaceLiterals text, character ≠ ',' := by
    refine (rewrites_replaceLiterals text).forall_mem (fun literal character member => ?_)
      normal.noComma
    rintro rfl
    rw [literal.1] at member
    exact absurd member (by decide)
  have stays {character : Char} (member : character ∈ Text.trim (replaceLiterals text))
      (solid : Text.isBlank character = false) : isSeparator character = false := by
    rw [← Bool.not_eq_true, isSeparator_iff]
    rintro (rfl | rfl | rfl)
    · exact noComma _ ((trim_sublist _).subset member) rfl
    · exact absurd solid (by decide)
    · exact absurd solid (by decide)
  rw [normal.normalForm_eq]
  have first := Text.solid_head?_trim (replaceLiterals text)
  have last := Text.solid_getLast?_trim (replaceLiterals text)
  exact ⟨trim_joined first last
    ⟨fun character there => stays (List.mem_of_head? there) (first character there),
      fun character there => stays (List.mem_of_getLast? there) (last character there)⟩,
    unquoted_joined (unquoted_trim (unquoted_replaceLiterals text))⟩

/-! ### Lines with plain blanks -/

theorem harmless_of_stripped {old new : List Char}
    (stripped : Annotation old new ∧ ∀ character ∈ old, character ≠ '\n') :
    Harmless old new := by
  obtain ⟨⟨rfl, inner, _, _, rfl⟩, noLineEnd⟩ := stripped
  refine ⟨List.cons_ne_nil _ _, fun member => noLineEnd _ member rfl, ?_, by decide, by decide⟩
  rw [List.getLast?_concat, Ne, Option.some.injEq]
  decide

theorem marks_blanks_separate : ∀ character ∈ literalMark ++ ' ' :: immediateMark,
    Text.isBlank character = true → isSeparator character = true := by
  have separate : (literalMark ++ ' ' :: immediateMark).all (fun character =>
      !Text.isBlank character || isSeparator character) = true := by decide
  intro character member blank
  have here := List.all_eq_true.mp separate character member
  rwa [blank, Bool.not_true, Bool.false_or] at here

/-- The normal form of a line whose blanks all separate words is settled. -/
theorem settled_of_blanks_separate (separate : ∀ character ∈ text,
      Text.isBlank character = true → isSeparator character = true) :
    Settled (normalizer.normalForm text) := by
  have lowered (character : Char) (member : character ∈ Text.lowercase text)
      (blank : Text.isBlank character = true) : isSeparator character = true :=
    separate character ((Text.mem_lowercase member).2 blank) blank
  have ends := (normal_normalForm normalizer text).ends
  have solid {character : Char} (member : character ∈ normalizer.normalForm text)
      (stays : isSeparator character = false) : Text.isBlank character = false := by
    rw [← Bool.not_eq_true] at stays ⊢
    exact mt (forall_mem_normalForm marks_blanks_separate lowered character member) stays
  refine ⟨Text.trim_of_solid
    (fun character first => solid (List.mem_of_head? first) (ends.1 character first))
    (fun character last => solid (List.mem_of_getLast? last) (ends.2 character last)), ?_⟩
  have noLineEnd : ∀ character ∈ replaceLiterals (Text.lowercase text), character ≠ '\n' := by
    refine (rewrites_replaceLiterals _).forall_mem (fun literal character member => ?_)
      fun character member => ?_
    · rintro rfl
      rw [literal.1] at member
      exact absurd member (by decide)
    · rintro rfl
      exact absurd (lowered _ member (by decide)) (by decide)
  have stripped := stripAnnotations_keeps
    (motive := fun text => Unquoted text ∧ ∀ character ∈ text, character ≠ '\n')
    (fun rewrites both =>
      ⟨unquoted_of_rewrites harmless_of_stripped (rewrites.within both.2) both.1,
        rewrites.forall_mem (fun mark character member => by
          rw [mark.1, List.mem_singleton] at member
          rw [member]
          decide) both.2⟩) ⟨unquoted_replaceLiterals _, noLineEnd⟩
  exact unquoted_joined (unquoted_trim stripped.1)

/-! ### Lines of text -/

theorem Produces.normal {line : String} (produces : normalizer.Produces line) :
    normalizer.Normal line.toList := by
  obtain ⟨raw, rfl⟩ := produces
  rw [toList_normalizeLine]
  exact normal_normalForm normalizer raw.toList

theorem normalizeLine_eq_iff (normalizer : Normalizer) (line : String) :
    normalizer.normalizeLine line = line ↔ normalizer.normalForm line.toList = line.toList := by
  rw [← String.toList_inj, toList_normalizeLine]

/-- Of the outputs of a normalizer it keeps those that are settled. -/
theorem Produces.normalizeLine_eq_self_iff {line : String} (produces : normalizer.Produces line) :
    normalizer.normalizeLine line = line ↔ Settled line.toList :=
  (normalizeLine_eq_iff normalizer line).trans produces.normal.normalForm_eq_self_iff

/-- What became of a line after two passes is settled. -/
theorem settled_normalizeLine_twice (normalizer : Normalizer) (line : String) :
    Settled (normalizer.normalizeLine (normalizer.normalizeLine line)).toList := by
  rw [toList_normalizeLine, toList_normalizeLine]
  exact (normal_normalForm normalizer line.toList).settled_normalForm

end Normalizer

/-! ### Graphs that record a normalizer -/

namespace Graph

theorem lines_normalize (graph : Graph) (pool : Pool) (normalizer : Normalizer)
    (store : Option TokenStore) (force : Bool) :
    (graph.normalize pool normalizer store force).graph.lines =
      if force || graph.normalizer != some normalizer.name then
        graph.lines.map normalizer.normalizeLine
      else graph.lines := by
  obtain ⟨tokens, same⟩ := exists_graph_normalize graph pool normalizer store force
  rw [same]
  split
  · exact lines_reline graph normalizer.normalizeLine normalizer.name
  · rfl

/-- Exactly the settled normal forms are their own normal forms. Another pass settles all of them,
and those of lines whose only blanks are spaces and tabs are settled from the beginning. If a graph
records a normalizer whose outputs its lines are, then leaving the lines alone, as the normalizer
does, and normalizing them again come to the same exactly if all of them are settled. -/
theorem normalization_settles (normalizer : Normalizer) :
    (∀ line : String,
      (normalizer.normalizeLine (normalizer.normalizeLine line) = normalizer.normalizeLine line ↔
        Normalizer.Settled (normalizer.normalizeLine line).toList) ∧
      normalizer.normalizeLine (normalizer.normalizeLine (normalizer.normalizeLine line)) =
        normalizer.normalizeLine (normalizer.normalizeLine line) ∧
      ((∀ character ∈ line.toList, Text.isBlank character = true →
          character = ' ' ∨ character = '\t') →
        normalizer.normalizeLine (normalizer.normalizeLine line) =
          normalizer.normalizeLine line)) ∧
      ∀ (graph : Graph) (pool : Pool) (store : Option TokenStore),
        graph.normalizer = some normalizer.name →
        (∀ line ∈ graph.lines, normalizer.Produces line) →
          (graph.normalize pool normalizer store false).graph.lines = graph.lines ∧
          ((graph.normalize pool normalizer store true).graph.lines =
              (graph.normalize pool normalizer store false).graph.lines ↔
            ∀ line ∈ graph.lines, Normalizer.Settled line.toList) := by
  refine ⟨fun line => ?_, fun graph pool store recorded produced => ?_⟩
  · have once : normalizer.Produces (normalizer.normalizeLine line) := ⟨line, rfl⟩
    have twice : normalizer.Produces (normalizer.normalizeLine (normalizer.normalizeLine line)) :=
      ⟨_, rfl⟩
    refine ⟨once.normalizeLine_eq_self_iff, twice.normalizeLine_eq_self_iff.mpr
      (normalizer.settled_normalizeLine_twice line), fun plain => ?_⟩
    refine once.normalizeLine_eq_self_iff.mpr ?_
    rw [Normalizer.toList_normalizeLine]
    exact Normalizer.settled_of_blanks_separate fun character member blank =>
      Normalizer.isSeparator_iff.mpr (Or.inr (plain character member blank))
  · have skipped : (graph.normalize pool normalizer store false).graph.lines = graph.lines := by
      rw [lines_normalize, recorded, Bool.false_or, bne_self_eq_false]
      rfl
    have rerun : (graph.normalize pool normalizer store true).graph.lines =
        graph.lines.map normalizer.normalizeLine := by
      rw [lines_normalize, Bool.true_or]
      rfl
    refine ⟨skipped, ?_⟩
    rw [rerun, skipped]
    nth_rewrite 2 [← List.map_id graph.lines]
    rw [List.map_inj_left]
    exact forall₂_congr fun line member => (produced line member).normalizeLine_eq_self_iff

/-! ### Settled and unsettled lines -/

/-- A graph of one block with one line. -/
def lineGraph (line : String) : Graph :=
  empty.unlessFails (empty.addFunctions
    [⟨none, none, false, ∅, [{ Block.new 16 with lines := [line] }]⟩] false)

theorem lines_lineGraph (line : String) : (lineGraph line).lines = [line] := by rfl

/-- The graph after the base normalizer was applied. -/
def normalizedGraph (line : String) : Graph :=
  ((lineGraph line).normalize [] .base none true).graph

theorem lines_normalizedGraph (line : String) :
    (normalizedGraph line).lines = [Normalizer.base.normalizeLine line] := by
  rw [normalizedGraph, lines_normalize, lines_lineGraph]
  rfl

theorem produces_normalizedGraph (line : String) :
    ∀ output ∈ (normalizedGraph line).lines, Normalizer.base.Produces output := by
  rw [lines_normalizedGraph]
  exact List.forall_mem_singleton.mpr ⟨line, rfl⟩

/-- A line with a quoted text, nested annotations, and blanks that all separate words. -/
def quotedLine : String := "LEA rdi,\t\"a \\\" b\" <x<y>>"

theorem quotedLine_settles :
    Normalizer.base.normalizeLine quotedLine = "lea rdi #str#" ∧
      Normalizer.base.normalizeLine (Normalizer.base.normalizeLine quotedLine) =
        Normalizer.base.normalizeLine quotedLine ∧
      ((normalizedGraph quotedLine).normalize [] .base none true).graph.lines =
        ((normalizedGraph quotedLine).normalize [] .base none false).graph.lines := by
  have form : Normalizer.base.normalizeLine quotedLine = "lea rdi #str#" := by decide +kernel
  have separate : (quotedLine.toList.all fun character =>
      !Text.isBlank character || character == ' ' || character == '\t') = true := by decide
  have plain (character : Char) (member : character ∈ quotedLine.toList)
      (blank : Text.isBlank character = true) : character = ' ' ∨ character = '\t' := by
    have here := List.all_eq_true.mp separate character member
    rwa [blank, Bool.not_true, Bool.false_or, Bool.or_eq_true, beq_iff_eq, beq_iff_eq] at here
  obtain ⟨lines, graphs⟩ := normalization_settles .base
  refine ⟨form, (lines quotedLine).2.2 plain,
    ((graphs _ [] none rfl (produces_normalizedGraph quotedLine)).2).mpr ?_⟩
  rw [lines_normalizedGraph, form]
  exact List.forall_mem_singleton.mpr (by decide)

/-- A blank behind a leading comma is trimmed by the second pass only, and two quotation marks may
come together when an annotation with a line end in it goes. So another pass over a normalized
graph can change its lines. -/
theorem second_pass_changes :
    Normalizer.base.normalizeLine ",\u00a0x" = "\u00a0x" ∧
      Normalizer.base.normalizeLine "\u00a0x" = "x" ∧
      Normalizer.base.normalizeLine "\"<\\\n>\"" = "\" \"" ∧
      Normalizer.base.normalizeLine "\" \"" = "#str#" ∧
      ((normalizedGraph ",\u00a0x").normalize [] .base none false).graph.lines = ["\u00a0x"] ∧
      ((normalizedGraph ",\u00a0x").normalize [] .base none true).graph.lines = ["x"] := by
  have first : Normalizer.base.normalizeLine ",\u00a0x" = "\u00a0x" := by decide +kernel
  have second : Normalizer.base.normalizeLine "\u00a0x" = "x" := by decide +kernel
  refine ⟨first, second, by decide +kernel, by decide +kernel, ?_, ?_⟩
  · rw [lines_normalize, lines_normalizedGraph, first]
    rfl
  · rw [lines_normalize, lines_normalizedGraph, first, Bool.true_or, if_pos rfl,
      List.map_singleton, second]

end Graph

end FlowGraph
