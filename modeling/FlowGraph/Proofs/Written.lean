/-
This file proves that texts come back from JSON. A text is written between
quotation marks, with an escape for every character that may not stand there, so
scanning what was written gives one token, which denotes the same text.
-/

import FlowGraph.Json.Decoder
import FlowGraph.Json.Writer

namespace FlowGraph.Json

/-- A run over two parts, the first of which is known. -/
theorem foldlM_append_of_eq_some {State Item : Type} {step : State → Item → Option State}
    {first rest : List Item} {before middle : State}
    (run : first.foldlM step before = some middle) :
    (first ++ rest).foldlM step before = rest.foldlM step middle := by
  rw [List.foldlM_append, run]
  rfl

/-! ### Characters -/

/-- What a character of a text is scanned as after it was written. Control characters without a
letter of their own are written by number. -/
def writtenUnit (character : Char) : TextUnit :=
  if character.toNat < 0x20 ∧ character ∉ ['\x08', '\t', '\n', '\x0c', '\r'] then
    .code character.toNat
  else .plain character

theorem toList_codeEscape {code : Nat} (control : code < 0x20) :
    (codeEscape code).toList =
      ['\\', 'u', '0', '0'] ++ [Nat.digitChar (code / 16), Nat.digitChar (code % 16)] := by
  revert code
  decide

theorem hexDigit?_digitChar {value : Nat} (digit : value < 16) :
    Scanner.hexDigit? (Nat.digitChar value) = some value := by
  revert value
  decide

/-- A control character that is written by number comes back as this number. -/
theorem scan_codeEscape (finished : List Token) (units : List TextUnit) {code : Nat}
    (control : code < 0x20) :
    (codeEscape code).toList.foldlM Scanner.step ⟨finished, .text units⟩ =
      some ⟨finished, .text (.code code :: units)⟩ := by
  have zeros : ['\\', 'u', '0', '0'].foldlM Scanner.step ⟨finished, .text units⟩ =
      some ⟨finished, .code units 2 0⟩ := rfl
  have upper : Scanner.step ⟨finished, .code units 2 0⟩ (Nat.digitChar (code / 16)) =
      some ⟨finished, .code units 1 (code / 16)⟩ := by
    rw [Scanner.step, hexDigit?_digitChar (by omega)]
    simp
  have lower : Scanner.step ⟨finished, .code units 1 (code / 16)⟩ (Nat.digitChar (code % 16)) =
      some ⟨finished, .text (.code code :: units)⟩ := by
    rw [Scanner.step, hexDigit?_digitChar (Nat.mod_lt code (by decide))]
    simp [Nat.div_add_mod']
  rw [toList_codeEscape control, foldlM_append_of_eq_some zeros, List.foldlM_cons, upper,
    Option.bind_eq_bind, Option.bind_some, List.foldlM_cons, lower]
  rfl

theorem scan_escapedChar (finished : List Token) (units : List TextUnit) (character : Char) :
    (escapedChar character).toList.foldlM Scanner.step ⟨finished, .text units⟩ =
      some ⟨finished, .text (writtenUnit character :: units)⟩ := by
  by_cases lettered : character ∈ ['"', '\\', '\x08', '\t', '\n', '\x0c', '\r']
  · simp only [List.mem_cons, List.not_mem_nil, or_false] at lettered
    rcases lettered with rfl | rfl | rfl | rfl | rfl | rfl | rfl <;> rfl
  · simp only [List.mem_cons, List.not_mem_nil, or_false, not_or] at lettered
    obtain ⟨quote, backslash, backspace, tab, line, page, back⟩ := lettered
    have written : escapedChar character =
        if character.toNat < 0x20 then codeEscape character.toNat else character.toString := by
      simp only [escapedChar, if_neg quote, if_neg backslash, if_neg backspace, if_neg tab,
        if_neg line, if_neg page, if_neg back]
    have unit : writtenUnit character =
        if character.toNat < 0x20 then .code character.toNat else .plain character := by
      simp [writtenUnit, backspace, tab, line, page, back]
    rw [written, unit]
    split
    · rename_i control
      exact scan_codeEscape finished units control
    · rename_i printed
      have plain : character.toString.toList = [character] := String.toList_singleton character
      rw [plain, List.foldlM_cons, Scanner.step]
      simp only [if_neg quote, if_neg backslash, if_neg printed]
      rfl

theorem scan_escapedChars (finished : List Token) (units : List TextUnit)
    (characters : List Char) :
    (characters.flatMap fun character => (escapedChar character).toList).foldlM Scanner.step
        ⟨finished, .text units⟩ =
      some ⟨finished, .text ((characters.map writtenUnit).reverse ++ units)⟩ := by
  induction characters generalizing units with
  | nil => rfl
  | cons character rest inductionHypothesis =>
    rw [List.flatMap_cons, foldlM_append_of_eq_some (scan_escapedChar finished units character),
      inductionHypothesis, List.map_cons, List.reverse_cons, List.append_assoc]
    rfl

/-- A code below the surrogates stands for a character by itself. -/
theorem characters?_code {code : Nat} (low : code < 0xd800) (rest : List TextUnit) :
    TextUnit.characters? (.code code :: rest) =
      (TextUnit.characters? rest).map (Char.ofNat code :: ·) := by
  have notHigh : ¬ (0xd800 ≤ code) := by omega
  have notLow : ¬ (0xdc00 ≤ code) := by omega
  match rest with
  | [] => simp only [TextUnit.characters?, notHigh, false_and, if_false]
  | .plain next :: others => simp [TextUnit.characters?, notHigh]
  | .code next :: others => simp [TextUnit.characters?, notHigh, notLow]

/-- What a written text denotes. -/
theorem characters?_writtenUnits (characters : List Char) :
    TextUnit.characters? (characters.map writtenUnit) = some characters := by
  induction characters with
  | nil => rfl
  | cons character rest inductionHypothesis =>
    rw [List.map_cons, writtenUnit]
    split
    · rename_i control
      rw [characters?_code (by omega), inductionHypothesis, Option.map_some, Char.ofNat_toNat]
    · rw [TextUnit.characters?, inductionHypothesis, Option.map_some]

/-! ### Texts -/

/-- The units of a written text. -/
def writtenUnits (content : String) : List TextUnit := content.toList.map writtenUnit

/-- The token of a written text. -/
def writtenToken (content : String) : Token := .text (writtenUnits content)

/-- A written text denotes itself. -/
theorem text?_writtenUnits (content : String) :
    TextUnit.text? (writtenUnits content) = some content := by
  rw [TextUnit.text?, writtenUnits, characters?_writtenUnits, Option.map_some, String.ofList_toList]

theorem scan_escaped (finished : List Token) (content : String) :
    (escaped content).toList.foldlM Scanner.step ⟨finished, .nothing⟩ =
      some ⟨writtenToken content :: finished, .nothing⟩ := by
  have mark : "\"".toList = ['"'] := rfl
  have opened : ['"'].foldlM Scanner.step ⟨finished, .nothing⟩ = some ⟨finished, .text []⟩ := rfl
  have inner := scan_escapedChars finished [] content.toList
  rw [escaped, String.toList_append, String.toList_append, mark, String.toList_join,
    List.flatMap_map, List.append_assoc, foldlM_append_of_eq_some opened,
    foldlM_append_of_eq_some inner, List.append_nil]
  show some _ = _
  rw [List.reverse_reverse]
  rfl

end FlowGraph.Json
