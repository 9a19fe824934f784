/-
This file turns raw assembly lines into their normal form. The line is put into small letters,
every quoted text becomes one mark, annotations in angle brackets are removed from the inside
out, and the operands, which commas, spaces and tabs separate, are joined by single spaces. A
normalizer with a threshold also hides every immediate operand above it. A normalizer is known
by its name, which determines it.
-/

import FlowGraph.Text.Blank
import FlowGraph.Text.Case
import FlowGraph.Text.Natural
import FlowGraph.Text.Quoted

namespace FlowGraph

/-- A way to normalize lines: the greatest immediate that is kept, if there is one. -/
structure Normalizer where
  threshold : Option UInt64
  deriving DecidableEq, Inhabited

namespace Normalizer

/-! ### Names -/

/-- Keeps every immediate. -/
def base : Normalizer := ⟨none⟩

/-- The threshold of the safe normalizer. -/
def safeThreshold : UInt64 := 5000

/-- Hides immediates above the usual threshold. -/
def safe : Normalizer := ⟨some safeThreshold⟩

/-- The name of a normalizer. -/
def name (normalizer : Normalizer) : String :=
  match normalizer.threshold with
  | none => "base"
  | some threshold =>
    if threshold = safeThreshold then "safe" else "safe_" ++ toString threshold.toNat

/-- What can be wrong with a request for a normalizer. -/
structure Unknown where
  requested : String
  deriving DecidableEq

/-- The message of a request for an unknown normalizer. -/
def Unknown.message (unknown : Unknown) : String :=
  "Unknown normalizer: " ++ Text.quoted unknown.requested

/-- The threshold at the end of a name in small letters. -/
def thresholdOfName? (name : List Char) : Option UInt64 :=
  match name with
  | 's' :: 'a' :: 'f' :: 'e' :: '_' :: digits => (Text.readWord 10 digits).toOption
  | _ => none

/-- The normalizer of a name; capital letters do not matter. -/
def ofName (name : String) : Except Unknown Normalizer :=
  let lowered := Text.lowercase name.toList
  if lowered = "base".toList ∨ lowered = "default".toList then .ok base
  else if lowered = "safe".toList then .ok safe
  else
    match thresholdOfName? lowered with
    | some threshold => .ok ⟨some threshold⟩
    | none => .error ⟨name⟩

/-! ### Quoted texts -/

/-- The mark that replaces a quoted text. -/
def literalMark : List Char := "#str#".toList

/-- What follows the closing quotation mark of a text. A backslash takes the next character with
it, which may not be a line end; a text that is never closed has no end. -/
def afterLiteral? (mark : Char) : List Char → Option (List Char)
  | [] => none
  | '\\' :: [] => none
  | '\\' :: escaped :: rest => if escaped = '\n' then none else afterLiteral? mark rest
  | character :: rest => if character = mark then some rest else afterLiteral? mark rest

theorem length_afterLiteral? {mark : Char} {text rest : List Char}
    (found : afterLiteral? mark text = some rest) : rest.length < text.length := by
  fun_induction afterLiteral? mark text with
  | case1 => cases found
  | case2 => cases found
  | case3 => cases found
  | case4 _ _ _ inductionHypothesis =>
    have := inductionHypothesis found
    simp only [List.length_cons]
    omega
  | case5 =>
    cases found
    simp
  | case6 _ _ _ _ _ inductionHypothesis =>
    have := inductionHypothesis found
    simp only [List.length_cons]
    omega

/-- Replaces every quoted text, from the left. -/
def replaceLiterals : List Char → List Char
  | [] => []
  | character :: rest =>
    if character = '"' ∨ character = '\'' then
      match _found : afterLiteral? character rest with
      | some after => literalMark ++ replaceLiterals after
      | none => character :: replaceLiterals rest
    else character :: replaceLiterals rest
  termination_by text => text.length
  decreasing_by
    · have := length_afterLiteral? _found
      simp only [List.length_cons]
      omega
    · simp
    · simp

/-! ### Annotations -/

/-- The text that is read and the annotation that is still open, both last character first. -/
structure Stripping where
  done : List Char
  opened : Option (List Char)

namespace Stripping

/-- Reads a character. An opening bracket begins an annotation and gives up the one before it; a
closing bracket turns the open annotation into a space. -/
def step (state : Stripping) (character : Char) : Stripping :=
  match state.opened with
  | none =>
    if character = '<' then ⟨state.done, some []⟩ else ⟨character :: state.done, none⟩
  | some inner =>
    if character = '<' then ⟨inner ++ '<' :: state.done, some []⟩
    else if character = '>' then ⟨' ' :: state.done, none⟩
    else ⟨state.done, some (character :: inner)⟩

/-- The text read so far. -/
def text (state : Stripping) : List Char :=
  match state.opened with
  | none => state.done.reverse
  | some inner => (inner ++ '<' :: state.done).reverse

end Stripping

/-- Replaces every annotation without brackets inside by a space. -/
def stripInnermost (text : List Char) : List Char :=
  (text.foldl Stripping.step ⟨[], none⟩).text

/-- Removes annotations from the inside out until none is left. Every annotation is longer than
the space that replaces it. -/
def stripAnnotations (text : List Char) : List Char :=
  if (stripInnermost text).length < text.length then stripAnnotations (stripInnermost text)
  else text
  termination_by text.length

/-! ### Operands -/

/-- The characters between operands. -/
def isSeparator (character : Char) : Bool :=
  character == ',' || character == ' ' || character == '\t'

/-- The operands of a line. -/
def operands : List Char → List (List Char)
  | [] => []
  | character :: rest =>
    if isSeparator character then operands rest
    else
      let word := character :: rest.takeWhile fun next => !isSeparator next
      word :: operands (rest.dropWhile fun next => !isSeparator next)
  termination_by text => text.length
  decreasing_by
    · simp
    · have := (List.dropWhile_suffix (l := rest) fun next => !isSeparator next).length_le
      simp only [List.length_cons]
      omega

/-- The mark that replaces a hidden immediate. -/
def immediateMark : List Char := "#immval#".toList

/-- The size of an immediate in small letters without its sign: digits in base sixteen, eight, two
or ten. -/
def unsigned? : List Char → Option Nat
  | '0' :: 'x' :: digits => Text.readDigits? 16 digits
  | '0' :: 'o' :: digits => Text.readDigits? 8 digits
  | '0' :: 'b' :: digits => Text.readDigits? 2 digits
  | digits => Text.readDigits? 10 digits

/-- The size of an immediate operand in small letters, perhaps after a minus sign. -/
def immediate? : List Char → Option Nat
  | '-' :: rest => unsigned? rest
  | operand => unsigned? operand

/-- A size as a word of 128 bits; sizes that do not fit count as the greatest word. -/
def saturated (size : Nat) : BitVec 128 :=
  BitVec.ofNat 128 (min size (BitVec.allOnes 128).toNat)

/-- The size of an immediate operand as it is compared. -/
def magnitude? (operand : List Char) : Option (BitVec 128) := (immediate? operand).map saturated

/-- The operand, or the mark if it is an immediate above the threshold. -/
def normalizeOperand (normalizer : Normalizer) (operand : List Char) : List Char :=
  match normalizer.threshold, magnitude? operand with
  | some threshold, some size =>
    if threshold.toBitVec.setWidth 128 < size then immediateMark else operand
  | _, _ => operand

/-- The line without quoted texts and annotations. -/
def stripped (line : List Char) : List Char :=
  Text.trim (stripAnnotations (replaceLiterals (Text.lowercase line)))

/-- The normal form of a line. -/
def normalizeLine (normalizer : Normalizer) (line : String) : String :=
  let words := (operands (stripped line.toList)).map normalizer.normalizeOperand
  String.ofList ([' '].intercalate words)

end Normalizer

end FlowGraph
