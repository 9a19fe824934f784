/-
This file reads the tokens of a script as statements, and proves how the parts of a
build script are read. A statement declares a variable or only evaluates a term. A
term is a number, a text, a path of names or a list, followed by any number of
members, calls and marks that pass a failure on. In lists and calls a comma may stand
after the last item.

Tokens are read one by one, with the open lists and calls on a stack. What stands
below the innermost one plays no role, so the reading of a term can be told by itself:
it leads from one place to another, whatever is around it.
-/

import FlowGraph.Proofs.ScriptTokens
import FlowGraph.Proofs.Written

namespace FlowGraph.Script

/-- A term of a script. -/
inductive Term where
  | number (value : Nat)
  | text (content : String)
  | name (path : List String)
  | list (items : List Term)
  | member (owner : Term) (name : String)
  | call (callee : Term) (arguments : List Term)
  | attempt (term : Term)

/-- A statement of a script. -/
inductive Statement where
  | declare (name : String) (value : Term)
  | perform (value : Term)

/-- A list or, with what is called, a call that is still open; last items first. -/
structure Frame where
  callee : Option Term
  items : List Term

/-- What has been read last. -/
inductive Place where
  | begin
  | afterLet
  | afterMut
  | named (name : String)
  | operand
  | term (term : Term)
  | member (owner : Term)
  | path (words : List String)

/-- The statements that were read, last first, the variable that is being declared, and the open
lists and calls, innermost first. -/
structure Reading where
  statements : List Statement
  declared : Option String
  frames : List Frame
  place : Place

/-- The number that a word denotes. -/
def number? (word : String) : Option Nat :=
  match word.toList with
  | '0' :: 'x' :: digits => Text.readDigits? 16 digits
  | digits => Text.readDigits? 10 digits

/-- A word as a term: a number if it begins with a digit, and otherwise a name. -/
def Term.ofWord? (word : String) : Option Term :=
  if word.toList.head?.any Char.isDigit then (number? word).map .number else some (.name [word])

namespace Reading

/-- The start of a script. -/
def start : Reading := ⟨[], none, [], .begin⟩

/-- The reading at another place. -/
def withPlace (reading : Reading) (place : Place) : Reading := { reading with place }

/-- Opens a list or a call. -/
def push (reading : Reading) (callee : Option Term) : Reading :=
  { reading with frames := ⟨callee, []⟩ :: reading.frames, place := .operand }

/-- Adds an item to the innermost list or call. -/
def give (reading : Reading) (term : Term) : Option Reading :=
  match reading.frames with
  | [] => none
  | frame :: outer =>
    some { reading with frames := ⟨frame.callee, term :: frame.items⟩ :: outer, place := .operand }

/-- Reads the end of the innermost list or call. -/
def takeEnd (reading : Reading) (mark : Char) : Option Reading :=
  match reading.frames, mark with
  | ⟨some callee, items⟩ :: outer, ')' =>
    some { reading with frames := outer, place := .term (.call callee items.reverse) }
  | ⟨none, items⟩ :: outer, ']' =>
    some { reading with frames := outer, place := .term (.list items.reverse) }
  | _, _ => none

/-- Reads a token where a term or an end may stand. -/
def takeOperand (reading : Reading) : Token → Option Reading
  | .word letters => (Term.ofWord? letters).map fun term => reading.withPlace (.term term)
  | .text content => some (reading.withPlace (.term (.text content)))
  | .mark '[' => some (reading.push none)
  | .mark mark => reading.takeEnd mark
  | .scope => none

/-- Finishes a statement. -/
def finish (reading : Reading) (term : Term) : Option Reading :=
  match reading.frames, reading.declared with
  | [], none => some ⟨.perform term :: reading.statements, none, [], .begin⟩
  | [], some name => some ⟨.declare name term :: reading.statements, none, [], .begin⟩
  | _, _ => none

/-- Reads a token after a term. -/
def takeRest (reading : Reading) (term : Term) : Token → Option Reading
  | .scope =>
    match term with
    | .name path => some (reading.withPlace (.path path))
    | _ => none
  | .mark '.' => some (reading.withPlace (.member term))
  | .mark '?' => some (reading.withPlace (.term (.attempt term)))
  | .mark '(' => some (reading.push (some term))
  | .mark ',' => reading.give term
  | .mark ';' => reading.finish term
  | .mark mark => (reading.give term).bind fun given => given.takeEnd mark
  | _ => none

/-- Reads one token. -/
def step (reading : Reading) (token : Token) : Option Reading :=
  match reading.place, token with
  | .begin, .word "let" => some (reading.withPlace .afterLet)
  | .begin, token => reading.takeOperand token
  | .afterLet, .word "mut" => some (reading.withPlace .afterMut)
  | .afterMut, .word name => some (reading.withPlace (.named name))
  | .named name, .mark '=' => some { reading with declared := some name, place := .operand }
  | .operand, token => reading.takeOperand token
  | .term term, token => reading.takeRest term token
  | .member owner, .word name => some (reading.withPlace (.term (.member owner name)))
  | .path words, .word letters => some (reading.withPlace (.term (.name (words ++ [letters]))))
  | _, _ => none

end Reading

/-- The statements of a script, if all of it can be read. -/
def statements? (script : String) : Option (List Statement) := do
  let tokens ← tokens? script
  let reading ← tokens.foldlM Reading.step Reading.start
  match reading.place with
  | .begin => some reading.statements.reverse
  | _ => none

/-! ### Reading parts of a script -/

variable {first second text : List Char} {before middle after reading next : Reading}
  {place between : Place} {term owner : Term} {mark : Char}

/-- Whether a text that finds no token open leads from one reading to another and leaves no token
open. -/
def Passes (text : List Char) (before after : Reading) : Prop :=
  ∃ tokens, Scans text tokens ∧ tokens.foldlM Reading.step before = some after

theorem Passes.append (here : Passes first before middle) (there : Passes second middle after) :
    Passes (first ++ second) before after := by
  obtain ⟨tokens, scanned, read⟩ := here
  obtain ⟨more, moreScanned, moreRead⟩ := there
  refine ⟨tokens ++ more, scanned.append moreScanned, ?_⟩
  rw [Json.foldlM_append_of_eq_some read, moreRead]

theorem passes_blanks (blank : ∀ character ∈ text, character ∈ [' ', '\n']) :
    Passes text reading reading := ⟨[], scans_blanks blank, rfl⟩

theorem passes_token {token : Token} (scanned : Scans text [token])
    (stepped : before.step token = some after) : Passes text before after :=
  ⟨[token], scanned, by rw [List.foldlM_cons, stepped]; rfl⟩

theorem passes_mark (isOne : isMark mark = true) (stepped : before.step (.mark mark) = some after) :
    Passes [mark] before after :=
  passes_token (by rw [Scans, run, step, begin_mark isOne]; rfl) stepped

/-- A script is read if its text leads back to where a statement may begin. -/
theorem statements?_of_passes {script : String}
    (passes : Passes script.toList .start after) (finished : after.place = .begin) :
    statements? script = some after.statements.reverse := by
  obtain ⟨tokens, scanned, read⟩ := passes
  have all : tokens? script = some tokens := by
    rw [tokens?, scanned, Option.bind_some, Partial.finish, Option.map_some, List.append_nil]
  simp only [statements?, all, read, finished, Option.bind_eq_bind, Option.bind_some]

/-- Whether a text leads from a place to a term, whatever is around it, as soon as a mark
follows. -/
def Leads (text : List Char) (place : Place) (term : Term) : Prop :=
  ∀ (reading next : Reading) (mark : Char), isMark mark = true →
    (reading.withPlace (.term term)).step (.mark mark) = some next →
      Passes (text ++ [mark]) (reading.withPlace place) next

/-- Whether a text is a term. -/
def Spells (text : List Char) (term : Term) : Prop := Leads text .operand term

theorem leads_of_passes
    (passes : ∀ reading : Reading,
      Passes text (reading.withPlace place) (reading.withPlace (.term term))) :
    Leads text place term :=
  fun reading _ _ isOne stepped => (passes reading).append (passes_mark isOne stepped)

theorem Leads.of_append
    (passes : ∀ reading : Reading,
      Passes first (reading.withPlace place) (reading.withPlace between))
    (leads : Leads second between term) : Leads (first ++ second) place term := by
  intro reading next mark isOne stepped
  rw [List.append_assoc]
  exact (passes reading).append (leads reading next mark isOne stepped)

/-- Whether a text is a word. -/
def IsWord (word : String) : Prop :=
  word.toList ≠ [] ∧ ∀ character ∈ word.toList, isWordCharacter character = true

instance : DecidablePred IsWord := fun word =>
  @instDecidableAnd _ _ inferInstance (List.decidableBAll (isWordCharacter · = true) word.toList)

/-- A word is read when the mark after it comes. -/
theorem leads_word {word : String} (isWord : IsWord word)
    (read : ∀ reading : Reading, (reading.withPlace place).step (.word word) =
      some (reading.withPlace (.term term))) : Leads word.toList place term := by
  intro reading next mark isOne stepped
  have scanned := scans_word_mark isWord.1 isWord.2 isOne
  rw [String.ofList_toList] at scanned
  refine ⟨_, scanned, ?_⟩
  rw [List.foldlM_cons, read, Option.bind_eq_bind, Option.bind_some, List.foldlM_cons, stepped]
  rfl

theorem passes_quoted (content : String) {statements : List Statement} {declared : Option String}
    {frames : List Frame} :
    Passes (Text.quoted content).toList ⟨statements, declared, frames, .operand⟩
      ⟨statements, declared, frames, .term (.text content)⟩ :=
  passes_token (scans_quoted content) rfl

theorem spells_quoted (content : String) : Spells (Text.quoted content).toList (.text content) :=
  leads_of_passes fun _ => passes_quoted content

theorem toList_hexAddress (address : Address) :
    (Text.hexAddress address).toList = '0' :: 'x' :: Nat.toDigits 16 address.toNat := by
  have digits : (Text.hexadecimal address.toNat).toList = Nat.toDigits 16 address.toNat :=
    String.toList_ofList
  rw [Text.hexAddress, String.toList_append, digits]
  rfl

theorem spells_hexAddress (address : Address) :
    Spells (Text.hexAddress address).toList (.number address.toNat) := by
  have shape := toList_hexAddress address
  have digit : (Text.hexAddress address).toList.head?.any Char.isDigit = true := by
    rw [shape]
    rfl
  have value : number? (Text.hexAddress address) = some address.toNat := by
    rw [number?, shape]
    exact readDigits?_toDigits address.toNat
  have term : Term.ofWord? (Text.hexAddress address) = some (.number address.toNat) := by
    rw [Term.ofWord?, if_pos digit, value]
    rfl
  refine leads_word ?_ fun reading => ?_
  · rw [IsWord, shape]
    exact ⟨List.cons_ne_nil _ _, List.forall_mem_cons.mpr ⟨rfl, List.forall_mem_cons.mpr ⟨rfl,
      isWordCharacter_toDigits _⟩⟩⟩
  · show (Term.ofWord? _).map _ = _
    rw [term]
    rfl

/-- A name in a scope. -/
theorem spells_scoped (scope name : String)
    (scanned : Scans (scope.toList ++ [':', ':']) [.word scope, .scope])
    (isName : Term.ofWord? scope = some (.name [scope])) (isWord : IsWord name) :
    Spells (scope.toList ++ [':', ':'] ++ name.toList) (.name [scope, name]) := by
  have leads : Leads name.toList (.path [scope]) (.name [scope, name]) :=
    leads_word isWord fun _ => rfl
  refine Leads.of_append (fun reading => ⟨_, scanned, ?_⟩) leads
  have named : (reading.withPlace .operand).step (.word scope) =
      some (reading.withPlace (.term (.name [scope]))) := by
    show (Term.ofWord? _).map _ = _
    rw [isName]
    rfl
  rw [List.foldlM_cons, named]
  rfl

/-! ### Members, calls and lists -/

/-- Items with commas between them fill an open list or call up to its end. -/
theorem passes_items {texts : List (List Char)} {terms : List Term}
    (each : List.Forall₂ Spells texts terms) {close : Char} (closing : close = ')' ∨ close = ']')
    {statements : List Statement} {declared : Option String} {callee : Option Term}
    {items : List Term} {outer : List Frame}
    (ended : Reading.takeEnd ⟨statements, declared, ⟨callee, terms.reverse ++ items⟩ :: outer,
      .operand⟩ close = some after) :
    Passes ([',', ' '].intercalate texts ++ [close])
      ⟨statements, declared, ⟨callee, items⟩ :: outer, .operand⟩ after := by
  induction each generalizing items with
  | nil => rcases closing with rfl | rfl <;> exact passes_mark rfl ended
  | @cons text term texts terms spelled others inductionHypothesis =>
    have spelledHere := spelled ⟨statements, declared, ⟨callee, items⟩ :: outer, .operand⟩
    cases others with
    | nil =>
      rw [List.intercalate_singleton]
      rcases closing with rfl | rfl
      · exact spelledHere after ')' rfl ended
      · exact spelledHere after ']' rfl ended
    | @cons nextText nextTerm moreTexts moreTerms _ _ =>
      rw [List.reverse_cons, List.append_assoc] at ended
      have rest := inductionHypothesis ended
      have comma := spelledHere _ ',' rfl rfl
      have blank : Passes [' '] _
          ⟨statements, declared, ⟨callee, term :: items⟩ :: outer, .operand⟩ :=
        passes_blanks (List.forall_mem_singleton.mpr List.mem_cons_self)
      have parts : text ++ [',', ' '] ++ [',', ' '].intercalate (nextText :: moreTexts) ++
          [close] = text ++ [','] ++ [' '] ++
            ([',', ' '].intercalate (nextText :: moreTexts) ++ [close]) := by
        simp only [List.append_assoc, List.cons_append, List.nil_append]
      rw [List.intercalate_cons_cons, parts]
      exact (comma.append blank).append rest

/-- What is between the parentheses of a call, and the one that closes it. -/
theorem passes_arguments {texts : List (List Char)} {arguments : List Term}
    (each : List.Forall₂ Spells texts arguments) (reading : Reading) (callee : Term) :
    Passes ([',', ' '].intercalate texts ++ [')']) (reading.push (some callee))
      (reading.withPlace (.term (.call callee arguments))) := by
  refine passes_items each (Or.inl rfl) ?_
  rw [List.append_nil]
  exact congrArg (fun all => some (reading.withPlace (.term (.call callee all))))
    (List.reverse_reverse arguments)

/-- The call of a member is opened. -/
theorem passes_member {name : String} (isWord : IsWord name) (reading : Reading) (owner : Term) :
    Passes (['.'] ++ (name.toList ++ ['('])) (reading.withPlace (.term owner))
      (reading.push (some (.member owner name))) := by
  have dot : Passes ['.'] (reading.withPlace (.term owner)) (reading.withPlace (.member owner)) :=
    passes_mark rfl rfl
  exact dot.append (leads_word isWord (fun _ => rfl) reading _ '(' rfl rfl)

theorem passes_attempt (reading : Reading) (term : Term) :
    Passes ['?'] (reading.withPlace (.term term)) (reading.withPlace (.term (.attempt term))) :=
  passes_mark rfl rfl

/-- A list of terms with commas between them is a term. -/
theorem spells_list {texts : List (List Char)} {items : List Term}
    (each : List.Forall₂ Spells texts items) :
    Spells (['['] ++ ([',', ' '].intercalate texts ++ [']'])) (.list items) := by
  refine leads_of_passes fun reading => ?_
  have opened : Passes ['['] (reading.withPlace .operand) (reading.push none) :=
    passes_mark rfl rfl
  refine opened.append (passes_items each (Or.inr rfl) ?_)
  rw [List.append_nil]
  exact congrArg (fun all => some (reading.withPlace (.term (.list all))))
    (List.reverse_reverse items)

/-- Items that each end in a comma fill an open list or call. -/
theorem passes_closed_items {callee : Option Term} {texts : List (List Char)} {terms : List Term}
    {statements : List Statement} {declared : Option String} {outer : List Frame}
    (each : List.Forall₂ (fun text term => ∀ items,
      Passes text ⟨statements, declared, ⟨callee, items⟩ :: outer, .operand⟩
        ⟨statements, declared, ⟨callee, term :: items⟩ :: outer, .operand⟩) texts terms)
    (items : List Term) :
    Passes texts.flatten ⟨statements, declared, ⟨callee, items⟩ :: outer, .operand⟩
      ⟨statements, declared, ⟨callee, terms.reverse ++ items⟩ :: outer, .operand⟩ := by
  induction each generalizing items with
  | nil => exact passes_blanks (List.forall_mem_nil _)
  | cons passes _ inductionHypothesis =>
    rw [List.flatten_cons, List.reverse_cons, List.append_assoc]
    exact (passes items).append (inductionHypothesis _)

end FlowGraph.Script
