/-
This file proves that a written value is read as the document that it was
written as, whatever the value. Between marks such as commas and brackets every
part of the text is scanned by itself, so the tokens of a list or record are
those of its parts with commas between them; and reading these tokens hands the
parts over one by one. A document keeps numbers as numerals and the fields of a
record in their order, so nothing is judged or lost on the way.
-/

import FlowGraph.Proofs.Numerals
import FlowGraph.Proofs.Written
import Mathlib.Data.List.Forall2

namespace FlowGraph.Json

/-! ### Tokens and documents of values -/

/-- The numeral that a number is written as. -/
def Number.numeral (number : Number) : Numeral :=
  (Numeral.ofMarks? number.toText.toList).getD ⟨false, [0], [], none⟩

theorem Number.ofMarks?_toText (number : Number) :
    Numeral.ofMarks? number.toText.toList = some number.numeral := by
  obtain ⟨numeral, read⟩ := number.exists_ofMarks?_toText
  rw [Number.numeral, read, Option.getD_some]

namespace Value

mutual

/-- The tokens of a written value. -/
def tokens : Value → List Token
  | .null => [.word "null".toList]
  | .boolean true => [.word "true".toList]
  | .boolean false => [.word "false".toList]
  | .number content => [.numeral content.toText.toList]
  | .text content => [.text (writtenUnits content)]
  | .list items => .openList :: ([.comma].intercalate (itemTokens items) ++ [.closeList])
  | .record fields =>
    .openRecord :: ([.comma].intercalate (fieldTokens fields) ++ [.closeRecord])

/-- The tokens of each of several items. -/
def itemTokens : List Value → List (List Token)
  | [] => []
  | item :: rest => tokens item :: itemTokens rest

/-- The tokens of each of several fields. -/
def fieldTokens : List (String × Value) → List (List Token)
  | [] => []
  | (name, value) :: rest =>
    (.text (writtenUnits name) :: .colon :: tokens value) :: fieldTokens rest

end

end Value

namespace Document

mutual

/-- A value as it is written. -/
def ofValue : Value → Document
  | .null => .null
  | .boolean truth => .boolean truth
  | .number content => .numeral content.numeral
  | .text content => .text (writtenUnits content)
  | .list items => .list (ofItems items)
  | .record fields => .record (ofFields fields)

/-- Items as they are written. -/
def ofItems : List Value → List Document
  | [] => []
  | item :: rest => ofValue item :: ofItems rest

/-- Fields as they are written. -/
def ofFields : List (String × Value) → List (List TextUnit × Document)
  | [] => []
  | (name, value) :: rest => (writtenUnits name, ofValue value) :: ofFields rest

end

theorem ofItems_eq_map (items : List Value) : ofItems items = items.map ofValue := by
  induction items with
  | nil => rfl
  | cons item rest inductionHypothesis => rw [ofItems, inductionHypothesis, List.map_cons]

theorem ofFields_eq_map (fields : List (String × Value)) :
    ofFields fields = fields.map fun field => (writtenUnits field.1, ofValue field.2) := by
  induction fields with
  | nil => rfl
  | cons field rest inductionHypothesis => rw [ofFields, inductionHypothesis, List.map_cons]

end Document

/-! ### Scanning -/

namespace Scanner

/-- The tokens once the unfinished one has ended; last token first. -/
def settled (scanner : Scanner) : Option (List Token) :=
  match scanner.current with
  | .nothing => some scanner.finished
  | .word letters => some (.word letters.reverse :: scanner.finished)
  | .numeral marks => some (.numeral marks.reverse :: scanner.finished)
  | _ => none

theorem finish_eq (scanner : Scanner) : scanner.finish = scanner.settled.map List.reverse := by
  obtain ⟨finished, current⟩ := scanner
  cases current <;> rfl

/-- Whether a character is a token by itself. -/
structure IsMark (character : Char) (token : Token) : Prop where
  noLetter : character.isLower = false
  noNumeral : isNumeralMark character = false
  begins : ∀ finished, begin finished character = some ⟨token :: finished, .nothing⟩

theorem isMark_comma : IsMark ',' .comma := ⟨rfl, rfl, fun _ => rfl⟩

theorem isMark_colon : IsMark ':' .colon := ⟨rfl, rfl, fun _ => rfl⟩

theorem isMark_openList : IsMark '[' .openList := ⟨rfl, rfl, fun _ => rfl⟩

theorem isMark_closeList : IsMark ']' .closeList := ⟨rfl, rfl, fun _ => rfl⟩

theorem isMark_openRecord : IsMark '\x7b' .openRecord := ⟨rfl, rfl, fun _ => rfl⟩

theorem isMark_closeRecord : IsMark '\x7d' .closeRecord := ⟨rfl, rfl, fun _ => rfl⟩

/-- A mark ends what came before it. -/
theorem IsMark.step {character : Char} {token : Token} (isMark : IsMark character token)
    {scanner : Scanner} {before : List Token} (settled : scanner.settled = some before) :
    scanner.step character = some ⟨token :: before, .nothing⟩ := by
  obtain ⟨finished, current⟩ := scanner
  cases current with
  | nothing =>
    cases settled
    exact isMark.begins finished
  | word letters =>
    cases settled
    rw [Scanner.step]
    dsimp only
    rw [isMark.noLetter, if_neg Bool.false_ne_true]
    exact isMark.begins _
  | numeral marks =>
    cases settled
    rw [Scanner.step]
    dsimp only
    rw [isMark.noNumeral, if_neg Bool.false_ne_true]
    exact isMark.begins _
  | text units => cases settled
  | escape units => cases settled
  | code units missing value => cases settled

end Scanner

/-- Whether characters that stand between marks are scanned as tokens. -/
def Scans (characters : List Char) (tokens : List Token) : Prop :=
  ∀ finished, ∃ scanner,
    characters.foldlM Scanner.step ⟨finished, .nothing⟩ = some scanner ∧
      scanner.settled = some (tokens.reverse ++ finished)

namespace Scans

theorem nil : Scans [] [] := fun finished => ⟨⟨finished, .nothing⟩, rfl, rfl⟩

/-- Parts on both sides of a mark are scanned by themselves. -/
theorem mark {character : Char} {token : Token} (isMark : Scanner.IsMark character token)
    {first rest : List Char} {firstTokens restTokens : List Token}
    (firstScans : Scans first firstTokens) (restScans : Scans rest restTokens) :
    Scans (first ++ character :: rest) (firstTokens ++ token :: restTokens) := by
  intro finished
  obtain ⟨middle, run, settled⟩ := firstScans finished
  obtain ⟨last, restRun, restSettled⟩ := restScans (token :: (firstTokens.reverse ++ finished))
  refine ⟨last, ?_, ?_⟩
  · rw [foldlM_append_of_eq_some run, List.foldlM_cons, isMark.step settled]
    exact restRun
  · rw [restSettled]
    simp only [List.reverse_append, List.reverse_cons, List.append_assoc, List.cons_append,
      List.nil_append]

/-- Parts with commas between them. -/
theorem commas {parts : List (List Char)} {tokens : List (List Token)}
    (each : List.Forall₂ Scans parts tokens) :
    Scans ([','].intercalate parts) ([.comma].intercalate tokens) := by
  induction each with
  | nil => exact nil
  | cons first rest inductionHypothesis =>
    cases rest with
    | nil =>
      rw [List.intercalate_singleton, List.intercalate_singleton]
      exact first
    | cons second others =>
      rw [List.intercalate_cons_cons, List.intercalate_cons_cons, List.append_assoc,
        List.append_assoc]
      exact mark Scanner.isMark_comma first inductionHypothesis

theorem text (content : String) :
    Scans (escaped content).toList [.text (writtenUnits content)] := fun finished =>
  ⟨_, scan_escaped finished content, rfl⟩

/-- The marks of a numeral are collected. -/
theorem foldlM_numeral {marks : List Char} (all : Numeral.AllMarks marks)
    (finished : List Token) (before : List Char) :
    marks.foldlM Scanner.step ⟨finished, .numeral before⟩ =
      some ⟨finished, .numeral (marks.reverse ++ before)⟩ := by
  induction marks generalizing before with
  | nil => rfl
  | cons mark rest inductionHypothesis =>
    rw [Numeral.AllMarks, List.forall_mem_cons] at all
    rw [List.foldlM_cons, Scanner.step]
    dsimp only
    rw [all.1, if_pos rfl]
    refine (inductionHypothesis all.2 (mark :: before)).trans ?_
    rw [List.reverse_cons, List.append_assoc]
    rfl

theorem begin_numeral {first : Char} (begins : (first.isDigit || first == '-') = true)
    (finished : List Token) :
    Scanner.begin finished first = some ⟨finished, .numeral [first]⟩ := by
  unfold Scanner.begin
  split
  all_goals first | exact absurd begins (by decide) | skip
  rw [if_pos begins]

theorem number (number : Number) : Scans number.toText.toList [.numeral number.toText.toList] := by
  intro finished
  obtain ⟨all, first, rest, same, begins⟩ := Numeral.marks_of_ofMarks? number.ofMarks?_toText
  rw [same] at all ⊢
  refine ⟨⟨finished, .numeral (rest.reverse ++ [first])⟩, ?_, ?_⟩
  · rw [List.foldlM_cons, Scanner.step]
    dsimp only
    rw [begin_numeral begins]
    exact foldlM_numeral (List.forall_mem_cons.mp all).2 finished [first]
  · show some (Token.numeral (rest.reverse ++ [first]).reverse :: finished) = _
    rw [← List.reverse_cons, List.reverse_reverse]
    rfl

mutual

/-- A written value is scanned as its tokens. -/
theorem value : ∀ value : Value, Scans value.toText.toList value.tokens
  | .null => fun finished => ⟨_, rfl, rfl⟩
  | .boolean true => fun finished => ⟨_, rfl, rfl⟩
  | .boolean false => fun finished => ⟨_, rfl, rfl⟩
  | .number content => number content
  | .text content => text content
  | .list parts => by
    have inner := mark Scanner.isMark_openList nil
      (mark Scanner.isMark_closeList (commas (items parts)) nil)
    rw [Value.toText, String.toList_append, String.toList_append, String.toList_intercalate]
    exact inner
  | .record parts => by
    have inner := mark Scanner.isMark_openRecord nil
      (mark Scanner.isMark_closeRecord (commas (fields parts)) nil)
    rw [Value.toText, String.toList_append, String.toList_append, String.toList_intercalate]
    exact inner

theorem items : ∀ items : List Value,
    List.Forall₂ Scans ((Value.itemTexts items).map String.toList) (Value.itemTokens items)
  | [] => List.Forall₂.nil
  | item :: rest => List.Forall₂.cons (value item) (items rest)

theorem fields : ∀ fields : List (String × Value),
    List.Forall₂ Scans ((Value.fieldTexts fields).map String.toList) (Value.fieldTokens fields)
  | [] => List.Forall₂.nil
  | (name, content) :: rest => by
    refine List.Forall₂.cons ?_ (fields rest)
    have field := mark Scanner.isMark_colon (text name) (value content)
    rw [String.toList_append, String.toList_append, List.append_assoc]
    exact field

end

end Scans

/-! ### Reading -/

theorem foldlM_one (reading : Reading) (token : Token) :
    [token].foldlM Reading.step reading = reading.step token := by
  rw [List.foldlM_cons]
  exact bind_pure _

/-- Whether a value may come next. -/
def Expected.StartsValue (expected : Expected) : Prop :=
  expected = .value ∨ expected = .valueOrEnd

/-- Whether the name of a field may come next. -/
def Expected.StartsName (expected : Expected) : Prop := expected = .name ∨ expected = .nameOrEnd

/-- Whether tokens are read as a document wherever a value may come. -/
def Reads (tokens : List Token) (document : Document) : Prop :=
  ∀ frames expected, expected.StartsValue →
    tokens.foldlM Reading.step ⟨frames, expected, none⟩ =
      Reading.give ⟨frames, .value, none⟩ document

namespace Reads

/-- Parts with commas between them are handed one by one to the list or record that is open. -/
theorem commas {Content : Type} {frame : List Content → Frame} {starts : Expected → Prop}
    {again : Expected} (againStarts : starts again) {outer : List Frame}
    (comma : ∀ contents, Reading.step ⟨frame contents :: outer, .commaOrEnd, none⟩ .comma =
      some ⟨frame contents :: outer, again, none⟩)
    {parts : List (List Token)} {contents : List Content}
    (each : List.Forall₂ (fun part content => ∀ before expected, starts expected →
      part.foldlM Reading.step ⟨frame before :: outer, expected, none⟩ =
        some ⟨frame (content :: before) :: outer, .commaOrEnd, none⟩) parts contents)
    (nonempty : contents ≠ []) (before : List Content) {expected : Expected}
    (started : starts expected) :
    ([.comma].intercalate parts).foldlM Reading.step ⟨frame before :: outer, expected, none⟩ =
      some ⟨frame (contents.reverse ++ before) :: outer, .commaOrEnd, none⟩ := by
  induction each generalizing before expected with
  | nil => exact absurd rfl nonempty
  | @cons part content _ _ first rest inductionHypothesis =>
    cases rest with
    | nil =>
      rw [List.intercalate_singleton]
      exact first before expected started
    | cons second others =>
      have between := (foldlM_one _ _).trans (comma (content :: before))
      rw [List.intercalate_cons_cons, List.append_assoc,
        foldlM_append_of_eq_some (first before expected started),
        foldlM_append_of_eq_some between,
        inductionHypothesis (List.cons_ne_nil _ _) (content :: before) againStarts]
      simp only [List.reverse_cons, List.append_assoc, List.cons_append, List.nil_append]

/-- A list of parts that are read is read. -/
theorem list {parts : List (List Token)} {documents : List Document}
    (each : List.Forall₂ Reads parts documents) :
    Reads (.openList :: ([.comma].intercalate parts ++ [.closeList])) (.list documents) := by
  intro frames expected started
  have opened : Reading.step ⟨frames, expected, none⟩ .openList =
      some ⟨.list [] :: frames, .valueOrEnd, none⟩ := by
    rcases started with rfl | rfl <;> rfl
  rw [List.foldlM_cons, opened, Option.bind_eq_bind, Option.bind_some]
  by_cases empty : documents = []
  · subst empty
    cases each
    exact foldlM_one _ _
  · have first : Expected.StartsValue .valueOrEnd := Or.inr rfl
    have again : Expected.StartsValue .value := Or.inl rfl
    have parts : List.Forall₂ (fun part document => ∀ before expected,
        Expected.StartsValue expected →
          part.foldlM Reading.step ⟨.list before :: frames, expected, none⟩ =
            some ⟨.list (document :: before) :: frames, .commaOrEnd, none⟩) parts documents :=
      each.imp fun _ _ reads _ expected started => reads _ expected started
    have inner := commas again (fun _ => rfl) parts empty [] first
    rw [foldlM_append_of_eq_some inner, foldlM_one, List.append_nil]
    show Reading.give _ (.list documents.reverse.reverse) = _
    rw [List.reverse_reverse]
    rfl

/-- A record of fields whose contents are read is read. -/
theorem record {parts : List (List Token)} {fields : List (List TextUnit × Document)}
    (each : List.Forall₂ (fun part field => ∃ rest, part = .text field.1 :: .colon :: rest ∧
      Reads rest field.2) parts fields) :
    Reads (.openRecord :: ([.comma].intercalate parts ++ [.closeRecord])) (.record fields) := by
  intro frames expected started
  have opened : Reading.step ⟨frames, expected, none⟩ .openRecord =
      some ⟨.record [] :: frames, .nameOrEnd, none⟩ := by
    rcases started with rfl | rfl <;> rfl
  rw [List.foldlM_cons, opened, Option.bind_eq_bind, Option.bind_some]
  by_cases empty : fields = []
  · subst empty
    cases each
    exact foldlM_one _ _
  · have first : Expected.StartsName .nameOrEnd := Or.inr rfl
    have again : Expected.StartsName .name := Or.inl rfl
    have parts : List.Forall₂ (fun part field => ∀ before expected,
        Expected.StartsName expected →
          part.foldlM Reading.step ⟨.record before :: frames, expected, none⟩ =
            some ⟨.record (field :: before) :: frames, .commaOrEnd, none⟩) parts fields := by
      refine each.imp fun part field reads before expected started => ?_
      obtain ⟨rest, rfl, content⟩ := reads
      have named : Reading.step ⟨.record before :: frames, expected, none⟩ (.text field.1) =
          some ⟨.field before field.1 :: frames, .colon, none⟩ := by
        rcases started with rfl | rfl <;> rfl
      rw [List.foldlM_cons, named]
      exact content (.field before field.1 :: frames) .value (Or.inl rfl)
    have inner := commas again (fun _ => rfl) parts empty [] first
    rw [foldlM_append_of_eq_some inner, foldlM_one, List.append_nil]
    show Reading.give _ (.record fields.reverse.reverse) = _
    rw [List.reverse_reverse]
    rfl

mutual

/-- The tokens of a written value are read as its document. -/
theorem value : ∀ value : Value, Reads value.tokens (.ofValue value)
  | .null => fun frames expected started => by
    rcases started with rfl | rfl <;> exact foldlM_one _ _
  | .boolean true => fun frames expected started => by
    rcases started with rfl | rfl <;> exact foldlM_one _ _
  | .boolean false => fun frames expected started => by
    rcases started with rfl | rfl <;> exact foldlM_one _ _
  | .number content => fun frames expected started => by
    have taken : Reading.takeValue ⟨frames, expected, none⟩ (.numeral content.toText.toList) =
        Reading.give ⟨frames, .value, none⟩ (.numeral content.numeral) := by
      rw [Reading.takeValue, content.ofMarks?_toText]
      rfl
    rcases started with rfl | rfl <;> exact (foldlM_one _ _).trans taken
  | .text content => fun frames expected started => by
    rcases started with rfl | rfl <;> exact foldlM_one _ _
  | .list parts => list (items parts)
  | .record parts => record (fields parts)

theorem items : ∀ items : List Value,
    List.Forall₂ Reads (Value.itemTokens items) (Document.ofItems items)
  | [] => List.Forall₂.nil
  | item :: rest => List.Forall₂.cons (value item) (items rest)

theorem fields : ∀ fields : List (String × Value),
    List.Forall₂ (fun part field => ∃ rest, part = .text field.1 :: .colon :: rest ∧
      Reads rest field.2) (Value.fieldTokens fields) (Document.ofFields fields)
  | [] => List.Forall₂.nil
  | (_, content) :: rest => List.Forall₂.cons ⟨_, rfl, value content⟩ (fields rest)

end

end Reads

/-- A written value is read as the document that it was written as. -/
theorem read?_toText (value : Value) : Document.read? value.toText = some (.ofValue value) := by
  obtain ⟨scanner, run, settled⟩ := Scans.value value []
  have tokens : Token.scan? value.toText = some value.tokens := by
    rw [Token.scan?, run, Option.bind_some, Scanner.finish_eq, settled, Option.map_some,
      List.append_nil, List.reverse_reverse]
  rw [Document.read?, tokens, Option.bind_eq_bind, Option.bind_some, Reading.start,
    Reads.value value [] .value (Or.inl rfl)]
  rfl

end FlowGraph.Json
