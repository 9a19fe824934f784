/-
This file proves that a build script is read as the calls that it was written for.
The terms are told beside the texts, part by part: every value is a term up to the
mark that follows it, every call continues the term before it, every block and every
function is an item of a list, with a comma of its own. So it does not matter what
names, labels, lines and values consist of. The counts at the top are a comment.
-/

import FlowGraph.BuildScript
import FlowGraph.Proofs.ScriptTerms

namespace FlowGraph

open Script

/-! ### What scripts are read as -/

/-- A JSON value as a term. -/
def valueTerm (value : Json.Value) : Term :=
  .attempt (.call (.name ["serde_json", "from_str"]) [.text value.toText])

/-- The kind of an edge as a term. -/
def EdgeKind.term : EdgeKind → Term
  | .normal => .name ["EdgeType", "Normal"]
  | .functionCall => .name ["EdgeType", "FunctionCall"]

/-- An address as a term. -/
def addressTerm (address : Address) : Term := .number address.toNat

/-- The method of a call on the builder of a block. -/
def BlockCall.method : BlockCall → String
  | .label _ => "with_label"
  | .lines _ => "with_asm_lines"
  | .lineAddresses _ => "with_asm_memory_addresses"
  | .metadata _ _ => "with_metadata"
  | .edgeOut _ _ => "with_edge_out"
  | .edgeIn _ _ => "with_edge_in"

/-- The arguments of a call on the builder of a block. -/
def BlockCall.arguments : BlockCall → List Term
  | .label text => [.text text]
  | .lines texts => [.list (texts.map .text)]
  | .lineAddresses addresses => [.list (addresses.map addressTerm)]
  | .metadata key value => [.text key, valueTerm value]
  | .edgeOut target kind => [addressTerm target, kind.term]
  | .edgeIn source kind => [addressTerm source, kind.term]

/-- A call on the builder of a block. -/
def BlockCall.continue (owner : Term) (call : BlockCall) : Term :=
  .call (.member owner call.method) call.arguments

/-- A block with its calls as a term. -/
def BlockScript.term (script : BlockScript) : Term :=
  script.calls.foldl BlockCall.continue
    (.call (.name ["BasicBlock", "new"]) [addressTerm script.address])

/-- The method of a call on the builder of a function. -/
def FunctionCall.method : FunctionCall → String
  | .name _ => "with_name"
  | .markExternal => "extern_function"
  | .metadata _ _ => "with_metadata"

/-- The arguments of a call on the builder of a function. -/
def FunctionCall.arguments : FunctionCall → List Term
  | .name symbol => [.text symbol]
  | .markExternal => [.name ["true"]]
  | .metadata key value => [.text key, valueTerm value]

/-- A call on the builder of a function. -/
def FunctionCall.continue (owner : Term) (call : FunctionCall) : Term :=
  .call (.member owner call.method) call.arguments

/-- A function with its calls and blocks as a term. -/
def FunctionScript.term (script : FunctionScript) : Term :=
  .call (.member (script.calls.foldl FunctionCall.continue
      (.call (.name ["FunctionBuilder", "at"]) [addressTerm script.address])) "with_blocks")
    [.list (script.blocks.map BlockScript.term)]

/-- A text as an owned one. -/
def ownedTerm (content : String) : Term := .call (.member (.text content) "to_string") []

namespace BuildScript

/-- The statement that names the normalizer. -/
def normalizerStatement (name : String) : Statement :=
  .perform (.call (.member (.name ["cfg"]) "set_normalizer")
    [.call (.name ["Some"]) [ownedTerm name]])

/-- The statement for an entry of the metadata. -/
def entryStatement (entry : String × Json.Value) : Statement :=
  .perform (.call (.member (.member (.name ["cfg"]) "metadata") "insert")
    [ownedTerm entry.1, valueTerm entry.2])

/-- The statement that adds all functions. -/
def functionsStatement (functions : List FunctionScript) : Statement :=
  .perform (.attempt (.call (.member (.name ["cfg"]) "add_function")
    [.list (functions.map FunctionScript.term), .name ["false"]]))

/-- The statements of a script. -/
def statements (script : BuildScript) : List Statement :=
  .declare "cfg" (.call (.name ["Cfg", "new"]) []) ::
    script.normalizer.toList.map normalizerStatement ++ script.metadata.map entryStatement ++
      if script.functions.isEmpty then [] else [functionsStatement script.functions]

end BuildScript

/-! ### Values -/

theorem spells_kind (kind : EdgeKind) : Spells kind.expression.toList kind.term := by
  cases kind with
  | normal => exact spells_scoped "EdgeType" "Normal" rfl rfl (by decide)
  | functionCall => exact spells_scoped "EdgeType" "FunctionCall" rfl rfl (by decide)

theorem toList_one (head argument : String) :
    (head ++ argument ++ ")").toList =
      head.toList ++ ([',', ' '].intercalate [argument.toList] ++ [')']) := by
  have close : ")".toList = [')'] := rfl
  rw [String.toList_append, String.toList_append, close, List.intercalate_singleton,
    List.append_assoc]

theorem toList_two (head first second : String) :
    (head ++ first ++ ", " ++ second ++ ")").toList =
      head.toList ++ ([',', ' '].intercalate [first.toList, second.toList] ++ [')']) := by
  have close : ")".toList = [')'] := rfl
  have comma : ", ".toList = [',', ' '] := rfl
  simp only [String.toList_append, close, comma, List.intercalate_cons_cons,
    List.intercalate_singleton, List.append_assoc]

/-- A call of a name in a scope. -/
theorem passes_scoped_call (head scope name : String)
    (named : head.toList = scope.toList ++ [':', ':'] ++ name.toList ++ ['('])
    (scanned : Scans (scope.toList ++ [':', ':']) [.word scope, .scope])
    (isName : Term.ofWord? scope = some (.name [scope])) (isWord : IsWord name)
    {argument : String} {term : Term} (spelled : Spells argument.toList term) (reading : Reading) :
    Passes (head ++ argument ++ ")").toList (reading.withPlace .operand)
      (reading.withPlace (.term (.call (.name [scope, name]) [term]))) := by
  have opened := spells_scoped scope name scanned isName isWord reading _ '(' rfl rfl
  rw [toList_one, named]
  exact opened.append (passes_arguments (.cons spelled .nil) reading (.name [scope, name]))

theorem spells_value (value : Json.Value) :
    Spells (valueExpression value).toList (valueTerm value) := by
  refine leads_of_passes fun reading => ?_
  have called := passes_scoped_call "serde_json::from_str(" "serde_json" "from_str" rfl rfl rfl
    (by decide) (spells_quoted value.toText) reading
  have attempted := passes_attempt reading
    (.call (.name ["serde_json", "from_str"]) [.text value.toText])
  have shape : valueExpression value =
      "serde_json::from_str(" ++ Text.quoted value.toText ++ ")" ++ "?" := by
    rw [String.append_assoc]
    rfl
  rw [shape, String.toList_append]
  exact called.append attempted

/-- An array spells the list of the terms that its items spell. -/
theorem spells_array {Item : Type} {write : Item → String} {term : Item → Term}
    (each : ∀ item, Spells (write item).toList (term item)) (items : List Item) :
    Spells (arrayExpression (items.map write)).toList (.list (items.map term)) := by
  have spelled : List.Forall₂ Spells ((items.map write).map String.toList) (items.map term) := by
    rw [List.map_map, List.forall₂_map_left_iff, List.forall₂_map_right_iff, List.forall₂_same]
    exact fun item _ => each item
  rw [arrayExpression, String.toList_append, String.toList_append, String.toList_intercalate,
    List.append_assoc]
  exact spells_list spelled

/-! ### Calls -/

/-- A call of a member that the text before the arguments names. -/
theorem passes_call (head name : String) (named : head.toList = ['.'] ++ (name.toList ++ ['(']))
    (isWord : IsWord name) {texts : List (List Char)} {arguments : List Term}
    (each : List.Forall₂ Spells texts arguments) (reading : Reading) (owner : Term) :
    Passes (head.toList ++ ([',', ' '].intercalate texts ++ [')']))
      (reading.withPlace (.term owner))
      (reading.withPlace (.term (.call (.member owner name) arguments))) := by
  rw [named]
  exact (passes_member isWord reading owner).append (passes_arguments each reading _)

theorem BlockCall.passes (call : BlockCall) (reading : Reading) (owner : Term) :
    Passes call.text.toList (reading.withPlace (.term owner))
      (reading.withPlace (.term (call.continue owner))) := by
  cases call with
  | label text =>
    show Passes (".with_label(" ++ Text.quoted text ++ ")").toList _ _
    rw [toList_one]
    exact passes_call ".with_label(" "with_label" rfl (by decide)
      (.cons (spells_quoted text) .nil) reading owner
  | lines texts =>
    show Passes (".with_asm_lines(" ++ arrayExpression (texts.map Text.quoted) ++ ")").toList _ _
    rw [toList_one]
    exact passes_call ".with_asm_lines(" "with_asm_lines" rfl (by decide)
      (.cons (spells_array spells_quoted texts) .nil) reading owner
  | lineAddresses addresses =>
    show Passes (".with_asm_memory_addresses(" ++
      arrayExpression (addresses.map Text.hexAddress) ++ ")").toList _ _
    rw [toList_one]
    exact passes_call ".with_asm_memory_addresses(" "with_asm_memory_addresses" rfl (by decide)
      (.cons (spells_array spells_hexAddress addresses) .nil) reading owner
  | metadata key value =>
    show Passes (".with_metadata(" ++ Text.quoted key ++ ", " ++ valueExpression value ++
      ")").toList _ _
    rw [toList_two]
    exact passes_call ".with_metadata(" "with_metadata" rfl (by decide)
      (.cons (spells_quoted key) (.cons (spells_value value) .nil)) reading owner
  | edgeOut target kind =>
    show Passes (".with_edge_out(" ++ Text.hexAddress target ++ ", " ++ kind.expression ++
      ")").toList _ _
    rw [toList_two]
    exact passes_call ".with_edge_out(" "with_edge_out" rfl (by decide)
      (.cons (spells_hexAddress target) (.cons (spells_kind kind) .nil)) reading owner
  | edgeIn source kind =>
    show Passes (".with_edge_in(" ++ Text.hexAddress source ++ ", " ++ kind.expression ++
      ")").toList _ _
    rw [toList_two]
    exact passes_call ".with_edge_in(" "with_edge_in" rfl (by decide)
      (.cons (spells_hexAddress source) (.cons (spells_kind kind) .nil)) reading owner

theorem FunctionCall.passes (call : FunctionCall) (reading : Reading) (owner : Term) :
    Passes call.text.toList (reading.withPlace (.term owner))
      (reading.withPlace (.term (call.continue owner))) := by
  cases call with
  | name symbol =>
    show Passes (".with_name(" ++ Text.quoted symbol ++ ")").toList _ _
    rw [toList_one]
    exact passes_call ".with_name(" "with_name" rfl (by decide)
      (.cons (spells_quoted symbol) .nil) reading owner
  | markExternal =>
    have truth : Spells "true".toList (.name ["true"]) :=
      leads_word (by decide) fun _ => rfl
    exact passes_call ".extern_function(" "extern_function" rfl (by decide) (.cons truth .nil)
      reading owner
  | metadata key value =>
    show Passes (".with_metadata(" ++ Text.quoted key ++ ", " ++ valueExpression value ++
      ")").toList _ _
    rw [toList_two]
    exact passes_call ".with_metadata(" "with_metadata" rfl (by decide)
      (.cons (spells_quoted key) (.cons (spells_value value) .nil)) reading owner

/-! ### Blocks and functions -/

theorem passes_indent (width : Nat) (reading : Reading) :
    Passes (indent width).toList reading reading := by
  unfold indent
  rw [String.toList_ofList]
  exact passes_blanks fun character member =>
    List.eq_of_mem_replicate member ▸ List.mem_cons_self

theorem passes_line (reading : Reading) : Passes "\n".toList reading reading :=
  passes_blanks (List.forall_mem_singleton.mpr (List.mem_cons_of_mem _ List.mem_cons_self))

/-- Calls that stand each on a line of its own continue a term. -/
theorem passes_calls {Call : Type} {text : Call → String} {onto : Term → Call → Term}
    (each : ∀ (call : Call) (reading : Reading) (owner : Term),
      Passes (text call).toList (reading.withPlace (.term owner))
        (reading.withPlace (.term (onto owner call))))
    (width : Nat) (calls : List Call) (reading : Reading) (owner : Term) :
    Passes (String.join (calls.map fun call => "\n" ++ indent width ++ text call)).toList
      (reading.withPlace (.term owner)) (reading.withPlace (.term (calls.foldl onto owner))) := by
  rw [String.toList_join, List.flatMap_map]
  induction calls generalizing owner with
  | nil => exact passes_blanks (List.forall_mem_nil _)
  | cons call rest inductionHypothesis =>
    rw [List.flatMap_cons, String.toList_append, String.toList_append]
    exact (((passes_line _).append (passes_indent width _)).append
      (each call reading owner)).append (inductionHypothesis _)

/-- A comma adds a term to the innermost list or call. -/
theorem passes_comma {statements : List Statement} {declared : Option String}
    {callee : Option Term} {items : List Term} {outer : List Frame} {place : Place} (term : Term) :
    Passes ",\n".toList
      (Reading.withPlace ⟨statements, declared, ⟨callee, items⟩ :: outer, place⟩ (.term term))
      ⟨statements, declared, ⟨callee, term :: items⟩ :: outer, .operand⟩ :=
  passes_token (show Scans _ [.mark ','] from rfl) rfl

theorem BlockScript.passes (script : BlockScript) {statements : List Statement}
    {declared : Option String} {callee : Option Term} {items : List Term} {outer : List Frame} :
    Passes script.text.toList ⟨statements, declared, ⟨callee, items⟩ :: outer, .operand⟩
      ⟨statements, declared, ⟨callee, script.term :: items⟩ :: outer, .operand⟩ := by
  have built := passes_scoped_call "BasicBlock::new(" "BasicBlock" "new" rfl rfl rfl (by decide)
    (spells_hexAddress script.address)
    ⟨statements, declared, ⟨callee, items⟩ :: outer, .operand⟩
  have shape : script.text = indent 16 ++
      ("BasicBlock::new(" ++ Text.hexAddress script.address ++ ")") ++
      String.join (script.calls.map fun call => "\n" ++ indent 20 ++ call.text) ++ ",\n" := by
    rw [← String.append_assoc, ← String.append_assoc]
    rfl
  rw [shape, String.toList_append, String.toList_append, String.toList_append]
  exact (((passes_indent 16 _).append built).append
    (passes_calls BlockCall.passes 20 script.calls _ _)).append (passes_comma _)

/-- Items of an open list that end in a comma each, one after another. -/
theorem passes_listed {Item : Type} {text : Item → String} {term : Item → Term}
    {statements : List Statement} {declared : Option String} {outer : List Frame}
    (each : ∀ item items, Passes (text item).toList
      ⟨statements, declared, ⟨none, items⟩ :: outer, .operand⟩
      ⟨statements, declared, ⟨none, term item :: items⟩ :: outer, .operand⟩) (all : List Item) :
    Passes (String.join (all.map text)).toList ⟨statements, declared, ⟨none, []⟩ :: outer, .operand⟩
      ⟨statements, declared, ⟨none, (all.map term).reverse⟩ :: outer, .operand⟩ := by
  have given : List.Forall₂ (fun text term => ∀ items,
      Passes text ⟨statements, declared, ⟨none, items⟩ :: outer, .operand⟩
        ⟨statements, declared, ⟨none, term :: items⟩ :: outer, .operand⟩)
      (all.map fun item => (text item).toList) (all.map term) := by
    rw [List.forall₂_map_left_iff, List.forall₂_map_right_iff, List.forall₂_same]
    exact fun item _ items => each item items
  have passed := passes_closed_items given []
  rw [List.append_nil] at passed
  rwa [String.toList_join, List.flatMap_map, List.flatMap_def]

theorem FunctionScript.passes (script : FunctionScript) {statements : List Statement}
    {declared : Option String} {items : List Term} {outer : List Frame} :
    Passes script.text.toList ⟨statements, declared, ⟨none, items⟩ :: outer, .operand⟩
      ⟨statements, declared, ⟨none, script.term :: items⟩ :: outer, .operand⟩ := by
  have built := passes_scoped_call "FunctionBuilder::at(" "FunctionBuilder" "at" rfl rfl rfl
    (by decide) (spells_hexAddress script.address)
    ⟨statements, declared, ⟨none, items⟩ :: outer, .operand⟩
  have opened (owner : Term) : Passes ".with_blocks([\n".toList
      (Reading.withPlace ⟨statements, declared, ⟨none, items⟩ :: outer, .operand⟩ (.term owner))
      ⟨statements, declared, ⟨none, []⟩ :: ⟨some (.member owner "with_blocks"), []⟩ ::
        ⟨none, items⟩ :: outer, .operand⟩ :=
    ⟨[.mark '.', .word "with_blocks", .mark '(', .mark '['], rfl, rfl⟩
  have closed (callee : Term) (blocks : List Term) : Passes "]),\n".toList
      ⟨statements, declared, ⟨none, blocks⟩ :: ⟨some callee, []⟩ :: ⟨none, items⟩ :: outer,
        .operand⟩
      ⟨statements, declared, ⟨none, .call callee [.list blocks.reverse] :: items⟩ :: outer,
        .operand⟩ := ⟨[.mark ']', .mark ')', .mark ','], rfl, rfl⟩
  have shape : script.text = indent 8 ++
      ("FunctionBuilder::at(" ++ Text.hexAddress script.address ++ ")") ++
      String.join (script.calls.map fun call => "\n" ++ indent 12 ++ call.text) ++
      "\n" ++ indent 12 ++ ".with_blocks([\n" ++ String.join (script.blocks.map BlockScript.text) ++
      indent 12 ++ "]),\n" := by
    rw [← String.append_assoc, ← String.append_assoc]
    rfl
  have ends := closed (.member (script.calls.foldl FunctionCall.continue
    (.call (.name ["FunctionBuilder", "at"]) [addressTerm script.address])) "with_blocks")
    (script.blocks.map BlockScript.term).reverse
  rw [List.reverse_reverse] at ends
  rw [shape, String.toList_append, String.toList_append, String.toList_append,
    String.toList_append, String.toList_append, String.toList_append, String.toList_append,
    String.toList_append]
  exact ((((((((passes_indent 8 _).append built).append
    (passes_calls FunctionCall.passes 12 script.calls _ _)).append (passes_line _)).append
    (passes_indent 12 _)).append (opened _)).append
    (passes_listed (fun block _ => block.passes) script.blocks)).append
    (passes_indent 12 _)).append ends

/-! ### Statements -/

namespace BuildScript

/-- The reading between two statements. -/
def between (statements : List Statement) : Reading := ⟨statements, none, [], .begin⟩

theorem passes_normalizer (name : String) (statements : List Statement) :
    Passes ("cfg.set_normalizer(Some(" ++ Text.quoted name ++ ".to_string()));\n").toList
      (between statements) (between (normalizerStatement name :: statements)) := by
  have opened : Passes "cfg.set_normalizer(Some(".toList (between statements)
      ⟨statements, none, [⟨some (.name ["Some"]), []⟩,
        ⟨some (.member (.name ["cfg"]) "set_normalizer"), []⟩], .operand⟩ :=
    ⟨[.word "cfg", .mark '.', .word "set_normalizer", .mark '(', .word "Some", .mark '('], rfl, rfl⟩
  have closed : Passes ".to_string()));\n".toList
      ⟨statements, none, [⟨some (.name ["Some"]), []⟩,
        ⟨some (.member (.name ["cfg"]) "set_normalizer"), []⟩], .term (.text name)⟩
      (between (normalizerStatement name :: statements)) :=
    ⟨[.mark '.', .word "to_string", .mark '(', .mark ')', .mark ')', .mark ')', .mark ';'], rfl,
      rfl⟩
  rw [String.toList_append, String.toList_append]
  exact (opened.append (passes_quoted name)).append closed

theorem passes_entry (entry : String × Json.Value) (statements : List Statement) :
    Passes ("cfg.metadata.insert(" ++ Text.quoted entry.1 ++ ".to_string(), " ++
        valueExpression entry.2 ++ ");\n").toList
      (between statements) (between (entryStatement entry :: statements)) := by
  have opened : Passes "cfg.metadata.insert(".toList (between statements)
      ⟨statements, none, [⟨some (.member (.member (.name ["cfg"]) "metadata") "insert"), []⟩],
        .operand⟩ :=
    ⟨[.word "cfg", .mark '.', .word "metadata", .mark '.', .word "insert", .mark '('], rfl, rfl⟩
  have owned : Passes ".to_string(), ".toList
      ⟨statements, none, [⟨some (.member (.member (.name ["cfg"]) "metadata") "insert"), []⟩],
        .term (.text entry.1)⟩
      ⟨statements, none, [⟨some (.member (.member (.name ["cfg"]) "metadata") "insert"),
        [ownedTerm entry.1]⟩], .operand⟩ :=
    ⟨[.mark '.', .word "to_string", .mark '(', .mark ')', .mark ','], rfl, rfl⟩
  have value := spells_value entry.2
    ⟨statements, none, [⟨some (.member (.member (.name ["cfg"]) "metadata") "insert"),
      [ownedTerm entry.1]⟩], .operand⟩ _ ')' rfl rfl
  have closed : Passes ";\n".toList
      ⟨statements, none, [], .term (.call (.member (.member (.name ["cfg"]) "metadata") "insert")
        [ownedTerm entry.1, valueTerm entry.2])⟩
      (between (entryStatement entry :: statements)) := ⟨[.mark ';'], rfl, rfl⟩
  have tail : ");\n".toList = [')'] ++ ";\n".toList := rfl
  rw [String.toList_append, String.toList_append, String.toList_append, String.toList_append, tail,
    ← List.append_assoc, List.append_assoc _ _ [')']]
  exact (((opened.append (passes_quoted entry.1)).append owned).append value).append closed

theorem passes_entries (entries : List (String × Json.Value)) (statements : List Statement) :
    Passes (String.join (entries.map fun entry => "cfg.metadata.insert(" ++ Text.quoted entry.1 ++
        ".to_string(), " ++ valueExpression entry.2 ++ ");\n")).toList
      (between statements) (between ((entries.map entryStatement).reverse ++ statements)) := by
  rw [String.toList_join, List.flatMap_map]
  induction entries generalizing statements with
  | nil => exact passes_blanks (List.forall_mem_nil _)
  | cons entry rest inductionHypothesis =>
    rw [List.flatMap_cons, List.map_cons, List.reverse_cons, List.append_assoc]
    exact (passes_entry entry statements).append (inductionHypothesis _)

theorem passes_functions (functions : List FunctionScript) (statements : List Statement) :
    Passes (functionsText functions).toList (between statements)
      (between ((if functions.isEmpty then [] else [functionsStatement functions]) ++
        statements)) := by
  unfold functionsText
  split
  · exact passes_blanks (List.forall_mem_nil _)
  · have opened : Passes "cfg.add_function(\n    [\n".toList (between statements)
        ⟨statements, none, [⟨none, []⟩, ⟨some (.member (.name ["cfg"]) "add_function"), []⟩],
          .operand⟩ :=
      ⟨[.word "cfg", .mark '.', .word "add_function", .mark '(', .mark '['], rfl, rfl⟩
    have closed (terms : List Term) : Passes "    ],\n    false,\n)?;\n".toList
        ⟨statements, none, [⟨none, terms⟩, ⟨some (.member (.name ["cfg"]) "add_function"), []⟩],
          .operand⟩
        (between (.perform (.attempt (.call (.member (.name ["cfg"]) "add_function")
          [.list terms.reverse, .name ["false"]])) :: statements)) :=
      ⟨[.mark ']', .mark ',', .word "false", .mark ',', .mark ')', .mark '?', .mark ';'], rfl, rfl⟩
    have ends := closed (functions.map FunctionScript.term).reverse
    rw [List.reverse_reverse] at ends
    rw [String.toList_append, String.toList_append]
    exact (opened.append (passes_listed (fun function _ => function.passes) functions)).append ends

/-- The line with the counts is a comment. -/
theorem scans_counts (functions blocks edges lines : Nat) :
    Scans ("// AUTO-GENERATED: " ++ toString functions ++ " functions, " ++ toString blocks ++
      " basic blocks, " ++ toString edges ++ " edges, " ++ toString lines ++
      " lines of assembly.\n").toList [] := by
  have opened : run .nothing "// AUTO-GENERATED: ".toList = some ([], .comment) := rfl
  have afterFunctions : run .comment " functions, ".toList = some ([], .comment) := rfl
  have afterBlocks : run .comment " basic blocks, ".toList = some ([], .comment) := rfl
  have afterEdges : run .comment " edges, ".toList = some ([], .comment) := rfl
  have closed : run .comment " lines of assembly.\n".toList = some ([], .nothing) := rfl
  rw [String.toList_append, String.toList_append, String.toList_append, String.toList_append,
    String.toList_append, String.toList_append, String.toList_append, String.toList_append]
  exact run_append (run_append (run_append (run_append (run_append (run_append (run_append
    (run_append opened (run_comment functions)) afterFunctions) (run_comment blocks)) afterBlocks)
    (run_comment edges)) afterEdges) (run_comment lines)) closed

/-- A script is read as the statements that it consists of. -/
theorem statements?_text (script : BuildScript) :
    statements? script.text = some script.statements := by
  have comment : Passes _ (between []) (between []) :=
    ⟨[], scans_counts script.functionCount script.blockCount script.edgeCount script.lineCount, rfl⟩
  have declared : Passes "let mut cfg = Cfg::new();\n".toList (between [])
      (between [.declare "cfg" (.call (.name ["Cfg", "new"]) [])]) :=
    ⟨[.word "let", .word "mut", .word "cfg", .mark '=', .word "Cfg", .scope, .word "new", .mark '(',
      .mark ')', .mark ';'], rfl, rfl⟩
  have order : script.statements.reverse =
      (if script.functions.isEmpty then [] else [functionsStatement script.functions]) ++
        ((script.metadata.map entryStatement).reverse ++
          ((script.normalizer.toList.map normalizerStatement).reverse ++
            [.declare "cfg" (.call (.name ["Cfg", "new"]) [])])) := by
    unfold BuildScript.statements
    split <;> simp only [List.reverse_append, List.reverse_cons, List.reverse_nil, List.nil_append,
      List.append_nil, List.cons_append, List.append_assoc]
  have passes : Passes script.text.toList .start (between script.statements.reverse) := by
    unfold text
    rw [order, String.toList_append, String.toList_append, String.toList_append,
      String.toList_append]
    refine (((comment.append declared).append ?_).append (passes_entries script.metadata _)).append
      (passes_functions script.functions _)
    cases script.normalizer with
    | none => exact passes_blanks (List.forall_mem_nil _)
    | some name => exact passes_normalizer name _
  rw [statements?_of_passes passes rfl, between, List.reverse_reverse]

end BuildScript

end FlowGraph
