/-
This file splits a script into tokens and proves how the parts that a build script
is made of are split. Between tokens blanks and comments may stand. A word is a run
of letters, digits and underscores, and numbers are words that begin with a digit. In
a text between quotation marks a backslash begins an escape: a letter for a usual
control, a code of two digits, a code point between braces, or a line end, which is
left out together with the blanks after it.

The tokens that a text adds depend only on the token that is open before it. Texts
that neither find a token open nor leave one open can therefore be put together from
such texts. A word stays open until a mark follows.
-/

import FlowGraph.Proofs.Immediates
import FlowGraph.Text.Natural
import FlowGraph.Text.Quoted

namespace FlowGraph.Script

/-- A token of a script. -/
inductive Token where
  | word (letters : String)
  | text (content : String)
  | scope
  | mark (character : Char)
  deriving DecidableEq

/-- What has been read of a token that is not finished yet. -/
inductive Partial where
  | nothing
  | word (letters : List Char)
  | colon
  | slash
  | comment
  | text (content : List Char)
  | escape (content : List Char)
  | lineEnd (content : List Char)
  | shortCode (content : List Char) (high : Option Nat)
  | brace (content : List Char)
  | code (content : List Char) (count : Nat) (value : Nat)
  deriving DecidableEq

/-- The tokens that a part of a text finishes, and what is open after it. -/
abbrev Scan := Option (List Token × Partial)

/-- A character that separates tokens. -/
def isBlank (character : Char) : Bool :=
  character == ' ' || character == '\t' || character == '\n' || character == '\r'

/-- A character of a word. -/
def isWordCharacter (character : Char) : Bool := character.isAlphanum || character == '_'

/-- A character that is a token by itself. -/
def isMark (character : Char) : Bool :=
  character ∈ ['(', ')', '[', ']', '.', ',', ';', '=', '?']

/-- Begins a token, or is a token, or separates tokens. -/
def begin (character : Char) : Scan :=
  if isMark character then some ([.mark character], .nothing)
  else if isWordCharacter character then some ([], .word [character])
  else if isBlank character then some ([], .nothing)
  else if character = '"' then some ([], .text [])
  else if character = ':' then some ([], .colon)
  else if character = '/' then some ([], .slash)
  else none

/-- Reads a character of a text. -/
def stepText (content : List Char) (character : Char) : Scan :=
  if character = '"' then some ([.text (.ofList content)], .nothing)
  else if character = '\\' then some ([], .escape content)
  else if character = '\r' then none
  else some ([], .text (content ++ [character]))

/-- Reads a character after a backslash. -/
def stepEscape (content : List Char) : Char → Scan
  | '"' => some ([], .text (content ++ ['"']))
  | '\'' => some ([], .text (content ++ ['\'']))
  | '\\' => some ([], .text (content ++ ['\\']))
  | 't' => some ([], .text (content ++ ['\t']))
  | 'n' => some ([], .text (content ++ ['\n']))
  | 'r' => some ([], .text (content ++ ['\r']))
  | '0' => some ([], .text (content ++ ['\x00']))
  | '\n' => some ([], .lineEnd content)
  | 'x' => some ([], .shortCode content none)
  | 'u' => some ([], .brace content)
  | _ => none

/-- Reads a character of a code point between braces, which has at most six digits. -/
def stepCode (content : List Char) (count value : Nat) (character : Char) : Scan :=
  if character = '\x7d' then
    if 0 < count ∧ value.isValidChar then some ([], .text (content ++ [.ofNat value])) else none
  else if character = '_' then
    if 0 < count then some ([], .code content count value) else none
  else if count < 6 then
    (Text.baseDigit? 16 character).map fun digit =>
      ([], .code content (count + 1) (value * 16 + digit))
  else none

/-- Reads a digit of a code of two digits, which stays below 128. -/
def stepShortCode (content : List Char) (high : Option Nat) (digit : Nat) : Scan :=
  match high with
  | none => some ([], .shortCode content (some digit))
  | some high =>
    if high < 8 then some ([], .text (content ++ [.ofNat (high * 16 + digit)])) else none

/-- Reads one character. -/
def step (current : Partial) (character : Char) : Scan :=
  match current with
  | .nothing => begin character
  | .word letters =>
    if isWordCharacter character then some ([], .word (letters ++ [character]))
    else (begin character).map fun next => (.word (.ofList letters) :: next.1, next.2)
  | .colon => if character = ':' then some ([.scope], .nothing) else none
  | .slash => if character = '/' then some ([], .comment) else none
  | .comment => some ([], if character = '\n' then .nothing else .comment)
  | .text content => stepText content character
  | .escape content => stepEscape content character
  | .lineEnd content =>
    if isBlank character then some ([], .lineEnd content) else stepText content character
  | .shortCode content high => (Text.baseDigit? 16 character).bind (stepShortCode content high)
  | .brace content => if character = '\x7b' then some ([], .code content 0 0) else none
  | .code content count value => stepCode content count value character

/-- Reads characters one after another. -/
def run (current : Partial) : List Char → Scan
  | [] => some ([], current)
  | character :: rest =>
    (step current character).bind fun next =>
      (run next.2 rest).map fun last => (next.1 ++ last.1, last.2)

/-- The last token of a script; a text that is still open has none. -/
def Partial.finish : Partial → Option (List Token)
  | .nothing => some []
  | .word letters => some [.word (.ofList letters)]
  | .comment => some []
  | _ => none

/-- The tokens of a script. -/
def tokens? (script : String) : Option (List Token) :=
  (run .nothing script.toList).bind fun scan => scan.2.finish.map fun last => scan.1 ++ last

/-! ### Putting texts together -/

variable {first second : List Char} {before middle last : Partial} {tokens more : List Token}

theorem run_append (here : run before first = some (tokens, middle))
    (there : run middle second = some (more, last)) :
    run before (first ++ second) = some (tokens ++ more, last) := by
  induction first generalizing before tokens with
  | nil =>
    cases here
    exact there
  | cons character rest inductionHypothesis =>
    rw [run, Option.bind_eq_some_iff] at here
    obtain ⟨next, stepped, others⟩ := here
    obtain ⟨⟨later, place⟩, ran, same⟩ := Option.map_eq_some_iff.mp others
    cases same
    rw [List.cons_append, run, stepped, Option.bind_some, inductionHypothesis ran, Option.map_some,
      List.append_assoc]

/-- Whether a text that finds no token open has these tokens and leaves none open. -/
def Scans (text : List Char) (tokens : List Token) : Prop :=
  run .nothing text = some (tokens, .nothing)

theorem Scans.append (here : Scans first tokens) (there : Scans second more) :
    Scans (first ++ second) (tokens ++ more) := run_append here there

theorem scans_nil : Scans [] [] := rfl

theorem scans_blanks {text : List Char} (blank : ∀ character ∈ text, character ∈ [' ', '\n']) :
    Scans text [] := by
  induction text with
  | nil => exact scans_nil
  | cons character rest inductionHypothesis =>
    rw [List.forall_mem_cons] at blank
    have one := blank.1
    simp only [List.mem_cons, List.not_mem_nil, or_false] at one
    have separates : Scans [character] [] := by rcases one with rfl | rfl <;> rfl
    exact separates.append (inductionHypothesis blank.2)

/-- The number of something in a comment. -/
theorem run_comment (count : Nat) :
    run .comment (toString count).toList = some ([], .comment) := by
  have digits : ∀ character ∈ (toString count).toList, character ≠ '\n' := by
    rw [Nat.toString_eq_repr, Nat.toList_repr]
    rintro _ member rfl
    exact absurd (Nat.isDigit_of_mem_toDigits (by decide) (by decide) member) (by decide)
  generalize (toString count).toList = text at digits
  induction text with
  | nil => rfl
  | cons character rest inductionHypothesis =>
    rw [List.forall_mem_cons] at digits
    rw [run, step, if_neg digits.1, Option.bind_some, inductionHypothesis digits.2]
    rfl

/-! ### Words -/

theorem run_word {text : List Char} (all : ∀ character ∈ text, isWordCharacter character = true)
    (letters : List Char) : run (.word letters) text = some ([], .word (letters ++ text)) := by
  induction text generalizing letters with
  | nil => rw [List.append_nil, run]
  | cons character rest inductionHypothesis =>
    rw [List.forall_mem_cons] at all
    rw [run, step, if_pos all.1, Option.bind_some, inductionHypothesis all.2, Option.map_some,
      List.append_assoc]
    rfl

theorem begin_mark {mark : Char} (isOne : isMark mark = true) :
    begin mark = some ([.mark mark], .nothing) := if_pos isOne

theorem not_mark_of_word {character : Char} (inWord : isWordCharacter character = true) :
    isMark character = false := by
  cases marked : isMark character with
  | false => rfl
  | true =>
    rw [isMark, decide_eq_true_iff] at marked
    simp only [List.mem_cons, List.not_mem_nil, or_false] at marked
    rcases marked with rfl | rfl | rfl | rfl | rfl | rfl | rfl | rfl | rfl <;> cases inWord

/-- A mark finishes the word before it. -/
theorem scans_word_mark {text : List Char} (present : text ≠ [])
    (all : ∀ character ∈ text, isWordCharacter character = true) {mark : Char}
    (isOne : isMark mark = true) :
    Scans (text ++ [mark]) [.word (.ofList text), .mark mark] := by
  obtain ⟨character, rest, rfl⟩ := List.exists_cons_of_ne_nil present
  rw [List.forall_mem_cons] at all
  have opened : run .nothing [character] = some ([], .word [character]) := by
    rw [run, step, begin, not_mark_of_word all.1, if_pos all.1]
    rfl
  have closed : run (.word (character :: rest)) [mark] =
      some ([.word (.ofList (character :: rest)), .mark mark], .nothing) := by
    have noWord : isWordCharacter mark = false := by
      cases inWord : isWordCharacter mark with
      | false => rfl
      | true => exact absurd (isOne.symm.trans (not_mark_of_word inWord)) (by decide)
    rw [run, step, noWord, begin_mark isOne]
    rfl
  exact run_append (run_append opened (run_word all.2 _)) closed

/-! ### Digits -/

theorem isWordCharacter_digitChar : ∀ digit < 16, isWordCharacter (Nat.digitChar digit) = true := by
  decide

/-- The digits of a number come from digits, the last ones from its last digit. -/
theorem toDigits_induction (holds : Nat → List Char → Prop)
    (one : ∀ digit < 16, holds digit [Nat.digitChar digit])
    (more : ∀ value digit text, 0 < value → digit < 16 → holds value text →
      holds (value * 16 + digit) (text ++ [Nat.digitChar digit])) (value : Nat) :
    holds value (Nat.toDigits 16 value) := by
  induction value using Nat.strongRecOn with
  | ind value inductionHypothesis =>
    by_cases small : value < 16
    · rw [Nat.toDigits_of_lt_base small]
      exact one value small
    · have rest := inductionHypothesis (value / 16) (Nat.div_lt_self (by omega) (by decide))
      have whole := more (value / 16) (value % 16) _ (by omega) (Nat.mod_lt _ (by decide)) rest
      rwa [Nat.div_add_mod',
        ← Nat.toDigits_of_base_le (by decide) (Nat.le_of_not_lt small)] at whole

theorem isWordCharacter_toDigits (value : Nat) :
    ∀ character ∈ Nat.toDigits 16 value, isWordCharacter character = true := by
  refine toDigits_induction (fun _ text => ∀ character ∈ text, isWordCharacter character = true)
    (fun digit small => ?_) (fun _ digit _ _ small all => ?_) value
  · exact List.forall_mem_singleton.mpr (isWordCharacter_digitChar digit small)
  · refine List.forall_mem_append.mpr ⟨all, List.forall_mem_singleton.mpr ?_⟩
    exact isWordCharacter_digitChar digit small

theorem baseDigit?_digitChar {digit : Nat} (small : digit < 16) :
    Text.baseDigit? 16 (Nat.digitChar digit) = some digit := by
  revert digit
  decide

/-- The digits of a number are read as the number. -/
theorem readDigits?_toDigits (value : Nat) :
    Text.readDigits? 16 (Nat.toDigits 16 value) = some value := by
  have digits : ∃ digits : List Nat,
      (Nat.toDigits 16 value).mapM (Text.baseDigit? 16) = some digits ∧
        digits.foldl (fun total digit => total * 16 + digit) 0 = value := by
    refine toDigits_induction (fun value text => ∃ digits : List Nat,
      text.mapM (Text.baseDigit? 16) = some digits ∧
        digits.foldl (fun total digit => total * 16 + digit) 0 = value)
      (fun digit small => ⟨[digit], ?_, by rw [List.foldl_cons, Nat.zero_mul, Nat.zero_add]; rfl⟩)
      (fun value digit text _ small read => ?_) value
    · rw [List.mapM_cons, baseDigit?_digitChar small]
      rfl
    · obtain ⟨digits, mapped, rfl⟩ := read
      refine ⟨digits ++ [digit], ?_, List.foldl_concat ..⟩
      rw [List.mapM_append, mapped, List.mapM_cons, baseDigit?_digitChar small]
      rfl
  obtain ⟨digits, mapped, total⟩ := digits
  obtain ⟨first, rest, shape⟩ :=
    List.exists_cons_of_ne_nil (Nat.toDigits_ne_nil (n := value) (b := 16))
  rw [shape] at mapped ⊢
  rw [Text.readDigits?, mapped, Option.map_some, total]
  exact fun none => List.cons_ne_nil _ _ none

/-- A number with more than one digit is at least the power of its first place. -/
theorem length_toDigits (value : Nat) : (Nat.toDigits 16 value).length = 1 ∨
    16 ^ ((Nat.toDigits 16 value).length - 1) ≤ value := by
  refine toDigits_induction (fun value text => text.length = 1 ∨ 16 ^ (text.length - 1) ≤ value)
    (fun _ _ => Or.inl rfl) (fun value digit text positive _ held => Or.inr ?_) value
  rw [List.length_append, List.length_singleton, Nat.add_sub_cancel]
  rcases held with one | large
  · rw [one, Nat.pow_one]
    omega
  · cases places : text.length with
    | zero =>
      rw [Nat.pow_zero]
      omega
    | succ places' =>
      rw [places, Nat.add_sub_cancel] at large
      rw [Nat.pow_succ]
      omega

theorem length_toDigits_le_six {value : Nat} (small : value < 16 ^ 6) :
    (Nat.toDigits 16 value).length ≤ 6 := by
  rcases length_toDigits value with one | large
  · rw [one]
    decide
  · by_contra many
    have power : 16 ^ 6 ≤ 16 ^ ((Nat.toDigits 16 value).length - 1) :=
      Nat.pow_le_pow_right (by decide) (by omega)
    omega

/-- The digits of a code point are read between braces. -/
theorem run_toDigits (content : List Char) {value : Nat} (small : value < 16 ^ 6) :
    run (.code content 0 0) (Nat.toDigits 16 value) =
      some ([], .code content (Nat.toDigits 16 value).length value) := by
  have digit {count total digit : Nat} (few : count < 6) (small : digit < 16) :
      run (.code content count total) [Nat.digitChar digit] =
        some ([], .code content (count + 1) (total * 16 + digit)) := by
    have plain : ∀ digit < 16, Nat.digitChar digit ≠ '\x7d' ∧ Nat.digitChar digit ≠ '_' := by decide
    obtain ⟨notBrace, notLine⟩ := plain digit small
    rw [run, step, stepCode, if_neg notBrace, if_neg notLine, if_pos few,
      baseDigit?_digitChar small]
    rfl
  refine toDigits_induction (fun value text => text.length ≤ 6 →
    run (.code content 0 0) text = some ([], .code content text.length value))
    (fun first small _ => ?_) (fun value last text _ small held few => ?_) value
    (length_toDigits_le_six small)
  · have one := @digit 0 0 _ (by decide) small
    rwa [Nat.zero_mul, Nat.zero_add, Nat.zero_add] at one
  · rw [List.length_append, List.length_singleton] at few ⊢
    exact run_append (held (by omega)) (digit (by omega) small)

/-! ### Texts between quotation marks -/

/-- A character is read from what is written for it between quotation marks. -/
theorem run_quotedChar (content : List Char) (character : Char) :
    run (.text content) (Text.quotedChar character).toList =
      some ([], .text (content ++ [character])) := by
  by_cases lettered : character ∈ ['"', '\\', '\t', '\n', '\r', '\x00']
  · simp only [List.mem_cons, List.not_mem_nil, or_false] at lettered
    rcases lettered with rfl | rfl | rfl | rfl | rfl | rfl <;> rfl
  · simp only [List.mem_cons, List.not_mem_nil, or_false, not_or] at lettered
    obtain ⟨quote, backslash, tab, line, back, null⟩ := lettered
    have plain : run (.text content) character.toString.toList =
        some ([], .text (content ++ [character])) := by
      have single : character.toString.toList = [character] := String.toList_singleton character
      rw [single, run, step, stepText, if_neg quote, if_neg backslash, if_neg back]
      rfl
    rw [Text.quotedChar, if_neg quote, if_neg backslash, if_neg tab, if_neg line, if_neg back,
      if_neg null]
    split
    · exact plain
    · split
      · -- the code point stands between braces
        have opened : run (.text content) "\\u\x7b".toList = some ([], .code content 0 0) := rfl
        have code : character.toNat.isValidChar := character.valid
        have bound : character.toNat < 16 ^ 6 := by
          rcases code with low | ⟨_, high⟩ <;> omega
        have closed : run (.code content (Nat.toDigits 16 character.toNat).length character.toNat)
            "\x7d".toList = some ([], .text (content ++ [character])) := by
          have count : 0 < (Nat.toDigits 16 character.toNat).length :=
            List.length_pos_of_ne_nil Nat.toDigits_ne_nil
          have close : "\x7d".toList = ['\x7d'] := rfl
          rw [close, run, step, stepCode, if_pos rfl, if_pos ⟨count, code⟩, Char.ofNat_toNat]
          rfl
        have digits : (Text.hexadecimal character.toNat).toList = Nat.toDigits 16 character.toNat :=
          String.toList_ofList
        rw [String.toList_append, String.toList_append, digits]
        exact run_append (run_append opened (run_toDigits content bound)) closed
      · exact plain

theorem run_quotedChars (content characters : List Char) :
    run (.text content) (characters.flatMap fun character => (Text.quotedChar character).toList) =
      some ([], .text (content ++ characters)) := by
  induction characters generalizing content with
  | nil => rw [List.append_nil, List.flatMap_nil, run]
  | cons character rest inductionHypothesis =>
    rw [List.flatMap_cons, List.append_cons]
    exact run_append (run_quotedChar content character) (inductionHypothesis _)

/-- A text between quotation marks is one token. -/
theorem scans_quoted (content : String) :
    Scans (Text.quoted content).toList [.text content] := by
  have opened : run .nothing "\"".toList = some ([], .text []) := rfl
  have closed : run (.text content.toList) "\"".toList = some ([.text content], .nothing) := by
    have quote : "\"".toList = ['"'] := rfl
    rw [quote, run, step, stepText, if_pos rfl, String.ofList_toList]
    rfl
  rw [Text.quoted, String.toList_append, String.toList_append, String.toList_join, List.flatMap_map]
  exact run_append (run_append opened (run_quotedChars [] content.toList)) closed

end FlowGraph.Script
