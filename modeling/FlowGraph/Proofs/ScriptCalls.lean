/-
This file carries out the calls that a script spells. Terms are blocks and functions
if they begin with the builder's own call and continue with calls of its methods; an
argument has to be a term of the kind that the method expects. A script declares one
graph, and its other statements are calls on that graph.

Carrying out a build script puts its blocks and functions together as they were
described, as long as the values among the metadata are read back from their texts.
-/

import FlowGraph.Proofs.Decoders
import FlowGraph.Proofs.ScriptTexts

namespace FlowGraph

namespace Script

namespace Term

/-! ### Arguments -/

/-- A text. -/
def content? : Term → Option String
  | .text content => some content
  | _ => none

/-- A text that was made an owned one. -/
def owned? : Term → Option String
  | .call (.member (.text content) "to_string") [] => some content
  | _ => none

/-- An address. -/
def address? : Term → Option Address
  | .number value => if value < UInt64.size then some (.ofNat value) else none
  | _ => none

/-- A truth value. -/
def truth? : Term → Option Bool
  | .name ["true"] => some true
  | .name ["false"] => some false
  | _ => none

/-- The kind of an edge. -/
def kind? : Term → Option EdgeKind
  | .name ["EdgeType", "Normal"] => some .normal
  | .name ["EdgeType", "FunctionCall"] => some .functionCall
  | _ => none

/-- A JSON value, read from its text. -/
def value? : Term → Option Json.Value
  | .attempt (.call (.name ["serde_json", "from_str"]) [.text content]) =>
    Json.Decoder.value.read content
  | _ => none

/-- The items of a list. -/
def items? {Item : Type} (item? : Term → Option Item) : Term → Option (List Item)
  | .list items => items.mapM item?
  | _ => none

/-! ### Builders -/

/-- A block after a call of a method. -/
def fill? (method : String) (arguments : List Term) (block : Block) : Option Block :=
  match method, arguments with
  | "with_label", [label] => label.content?.map fun label =>
    { block with labels := block.labels.insert label }
  | "with_asm_lines", [lines] => (lines.items? content?).map fun lines => { block with lines }
  | "with_asm_memory_addresses", [addresses] => (addresses.items? address?).map fun addresses =>
    { block with lineAddresses := addresses }
  | "with_metadata", [key, value] => do
    let key ← key.content?
    let value ← value.value?
    return { block with metadata := block.metadata.insert key value }
  | "with_edge_out", [target, kind] => do
    let target ← target.address?
    let kind ← kind.kind?
    return block.addOut target kind
  | "with_edge_in", [source, kind] => do
    let source ← source.address?
    let kind ← kind.kind?
    return block.addIn source kind
  | _, _ => none

/-- A block that is put together call by call. -/
def block? : Term → Option Block
  | .call (.name ["BasicBlock", "new"]) [address] => address.address?.map Block.new
  | .call (.member owner method) arguments => owner.block?.bind (fill? method arguments)
  | _ => none

/-- A function after a call of a method. -/
def extend? (method : String) (arguments : List Term) (draft : FunctionDraft) :
    Option FunctionDraft :=
  match method, arguments with
  | "with_name", [symbol] => symbol.content?.map fun symbol => { draft with name := some symbol }
  | "extern_function", [truth] => truth.truth?.map fun isExternal => { draft with isExternal }
  | "with_metadata", [key, value] => do
    let key ← key.content?
    let value ← value.value?
    return { draft with metadata := draft.metadata.insert key value }
  | "with_block", [block] => block.block?.map fun block =>
    { draft with blocks := draft.blocks ++ [block] }
  | "with_blocks", [blocks] => (blocks.items? block?).map fun blocks =>
    { draft with blocks := draft.blocks ++ blocks }
  | _, _ => none

/-- A function that is put together call by call. -/
def draft? : Term → Option FunctionDraft
  | .call (.name ["FunctionBuilder", "at"]) [address] => address.address?.map fun address =>
    { FunctionDraft.empty with address := some address }
  | .call (.name ["FunctionBuilder", "new"]) [] => some .empty
  | .call (.member owner method) arguments => owner.draft?.bind (extend? method arguments)
  | _ => none

end Term

/-! ### Graphs -/

/-- A graph after a statement, a call on the variable of this name. -/
def perform? (name : String) (graph : Graph) : Statement → Option Graph
  | .perform (.call (.member (.name [owner]) "set_normalizer") [.name ["None"]]) =>
    if owner = name then some { graph with normalizer := none } else none
  | .perform (.call (.member (.name [owner]) "set_normalizer") [.call (.name ["Some"]) [text]]) =>
    if owner = name then text.owned?.map fun normalizer =>
      { graph with normalizer := some normalizer }
    else none
  | .perform (.call (.member (.member (.name [owner]) "metadata") "insert") [key, value]) =>
    if owner = name then do
      let key ← key.owned?
      let value ← value.value?
      return { graph with metadata := graph.metadata.insert key value }
    else none
  | .perform (.attempt (.call (.member (.name [owner]) "add_function") [functions, override])) =>
    if owner = name then do
      let drafts ← functions.items? Term.draft?
      let override ← override.truth?
      (graph.addFunctions drafts override).toOption
    else none
  | _ => none

/-- The graph that statements build up from nothing. -/
def execute? : List Statement → Option Graph
  | .declare name (.call (.name ["Cfg", "new"]) []) :: calls =>
    calls.foldlM (perform? name) Graph.empty
  | _ => none

/-- The graph that a script builds. -/
def rebuild? (script : String) : Option Graph := (statements? script).bind execute?

end Script

/-! ### What the calls of a build script do -/

/-- A block after a call. -/
def BlockCall.apply (block : Block) : BlockCall → Block
  | .label text => { block with labels := block.labels.insert text }
  | .lines texts => { block with lines := texts }
  | .lineAddresses addresses => { block with lineAddresses := addresses }
  | .metadata key value => { block with metadata := block.metadata.insert key value }
  | .edgeOut target kind => block.addOut target kind
  | .edgeIn source kind => block.addIn source kind

/-- Whether the value of a call, if there is one, is read back from its text. -/
def BlockCall.ReadsBack : BlockCall → Prop
  | .metadata _ value => value.ReadsBack Json.Decoder.nestingLimit
  | _ => True

/-- A function after a call. -/
def FunctionCall.apply (draft : FunctionDraft) : FunctionCall → FunctionDraft
  | .name symbol => { draft with name := some symbol }
  | .markExternal => { draft with isExternal := true }
  | .metadata key value => { draft with metadata := draft.metadata.insert key value }

/-- Whether the value of a call, if there is one, is read back from its text. -/
def FunctionCall.ReadsBack : FunctionCall → Prop
  | .metadata _ value => value.ReadsBack Json.Decoder.nestingLimit
  | _ => True

/-- The block that a script describes. -/
def BlockScript.build (script : BlockScript) : Block :=
  script.calls.foldl BlockCall.apply (Block.new script.address)

/-- The function that a script describes. -/
def FunctionScript.build (script : FunctionScript) : FunctionDraft :=
  let draft := script.calls.foldl FunctionCall.apply
    { FunctionDraft.empty with address := some script.address }
  { draft with blocks := draft.blocks ++ script.blocks.map BlockScript.build }

/-- Whether all values of a block are read back. -/
def BlockScript.ReadsBack (script : BlockScript) : Prop := ∀ call ∈ script.calls, call.ReadsBack

/-- Whether all values of a function and its blocks are read back. -/
structure FunctionScript.ReadsBack (script : FunctionScript) : Prop where
  own : ∀ call ∈ script.calls, call.ReadsBack
  blocks : ∀ block ∈ script.blocks, block.ReadsBack

/-- Whether all values of a script are read back. -/
structure BuildScript.ReadsBack (script : BuildScript) : Prop where
  own : ∀ entry ∈ script.metadata, entry.2.ReadsBack Json.Decoder.nestingLimit
  functions : ∀ function ∈ script.functions, function.ReadsBack

open Script

theorem address?_addressTerm (address : Address) :
    (addressTerm address).address? = some address := by
  rw [addressTerm, Term.address?, if_pos address.toNat_lt, UInt64.ofNat_toNat]

theorem EdgeKind.kind?_term (kind : EdgeKind) : kind.term.kind? = some kind := by
  cases kind <;> rfl

theorem value?_valueTerm {value : Json.Value}
    (readsBack : value.ReadsBack Json.Decoder.nestingLimit) :
    (valueTerm value).value? = some value := readsBack

/-- A list of terms is read item by item. -/
theorem items?_map {Source Item : Type} {item? : Term → Option Item} {term : Source → Term}
    {image : Source → Item} {all : List Source}
    (each : ∀ source ∈ all, item? (term source) = some (image source)) :
    (Term.list (all.map term)).items? item? = some (all.map image) := by
  rw [Term.items?]
  induction all with
  | nil => rfl
  | cons source rest inductionHypothesis =>
    rw [List.forall_mem_cons] at each
    rw [List.map_cons, List.mapM_cons, each.1, inductionHypothesis each.2]
    rfl

/-- A list of terms that each come back is read as it was. -/
theorem items?_same {Item : Type} {item? : Term → Option Item} {term : Item → Term}
    (each : ∀ item, item? (term item) = some item) (all : List Item) :
    (Term.list (all.map term)).items? item? = some all := by
  have back (item : Item) (_ : item ∈ all) : item? (term item) = some (id item) := each item
  have read := items?_map back
  rwa [List.map_id] at read

theorem content?_text (content : String) : (Term.text content).content? = some content := rfl

theorem BlockCall.fill?_eq {call : BlockCall} (readsBack : call.ReadsBack) (block : Block) :
    Term.fill? call.method call.arguments block = some (apply block call) := by
  cases call with
  | label text => rfl
  | lines texts =>
    show ((Term.list (texts.map .text)).items? Term.content?).map _ = _
    rw [items?_same content?_text]
    rfl
  | lineAddresses addresses =>
    show ((Term.list (addresses.map addressTerm)).items? Term.address?).map _ = _
    rw [items?_same address?_addressTerm]
    rfl
  | metadata key value =>
    show ((valueTerm value).value?).bind _ = _
    rw [value?_valueTerm readsBack]
    rfl
  | edgeOut target kind =>
    show ((addressTerm target).address?).bind _ = _
    rw [address?_addressTerm]
    show (kind.term.kind?).bind _ = _
    rw [kind.kind?_term]
    rfl
  | edgeIn source kind =>
    show ((addressTerm source).address?).bind _ = _
    rw [address?_addressTerm]
    show (kind.term.kind?).bind _ = _
    rw [kind.kind?_term]
    rfl

theorem FunctionCall.extend?_eq {call : FunctionCall} (readsBack : call.ReadsBack)
    (draft : FunctionDraft) :
    Term.extend? call.method call.arguments draft = some (apply draft call) := by
  cases call with
  | name symbol => rfl
  | markExternal => rfl
  | metadata key value =>
    show ((valueTerm value).value?).bind _ = _
    rw [value?_valueTerm readsBack]
    rfl

/-! ### Blocks and functions -/

/-- Calls that each change what was put together before them change it one after another. -/
theorem foldl_continue {Call Item : Type} {item? : Term → Option Item} {onto : Term → Call → Term}
    {apply : Item → Call → Item} {calls : List Call}
    (each : ∀ call ∈ calls, ∀ {owner : Term} {item : Item}, item? owner = some item →
      item? (onto owner call) = some (apply item call))
    {owner : Term} {item : Item} (read : item? owner = some item) :
    item? (calls.foldl onto owner) = some (calls.foldl apply item) := by
  induction calls generalizing owner item with
  | nil => exact read
  | cons call rest inductionHypothesis =>
    rw [List.forall_mem_cons] at each
    exact inductionHypothesis each.2 (each.1 read)

/-- A block is put together as it was described. -/
theorem BlockScript.block?_term {script : BlockScript} (readsBack : script.ReadsBack) :
    script.term.block? = some script.build := by
  refine foldl_continue (fun call member owner block read => ?_) ?_
  · have filled := BlockCall.fill?_eq (readsBack call member) block
    show owner.block?.bind (Term.fill? call.method call.arguments) = _
    rw [read, Option.bind_some, filled]
  · show ((addressTerm script.address).address?).map Block.new = _
    rw [address?_addressTerm, Option.map_some]

/-- A function is put together as it was described. -/
theorem FunctionScript.draft?_term {script : FunctionScript} (readsBack : script.ReadsBack) :
    script.term.draft? = some script.build := by
  have called : (script.calls.foldl FunctionCall.continue
      (.call (.name ["FunctionBuilder", "at"]) [addressTerm script.address])).draft? =
      some (script.calls.foldl FunctionCall.apply
        { FunctionDraft.empty with address := some script.address }) := by
    refine foldl_continue (fun call member owner draft read => ?_) ?_
    · have extended := FunctionCall.extend?_eq (readsBack.own call member) draft
      show owner.draft?.bind (Term.extend? call.method call.arguments) = _
      rw [read, Option.bind_some, extended]
    · show ((addressTerm script.address).address?).map _ = _
      rw [address?_addressTerm, Option.map_some]
  have blocks : (Term.list (script.blocks.map BlockScript.term)).items? Term.block? =
      some (script.blocks.map BlockScript.build) :=
    items?_map fun block member => BlockScript.block?_term (readsBack.blocks block member)
  show (script.calls.foldl FunctionCall.continue
      (.call (.name ["FunctionBuilder", "at"]) [addressTerm script.address])).draft?.bind
    (Term.extend? "with_blocks" [.list (script.blocks.map BlockScript.term)]) = _
  rw [called, Option.bind_some]
  show ((Term.list (script.blocks.map BlockScript.term)).items? Term.block?).map _ = _
  rw [blocks]
  rfl

/-! ### Graphs -/

namespace BuildScript

/-- The graph that a script starts from: without functions, with the metadata of the script. -/
def start (script : BuildScript) : Graph :=
  { Graph.empty with
    normalizer := script.normalizer
    metadata := .ofFields script.metadata }

theorem perform?_entryStatement {entry : String × Json.Value}
    (readsBack : entry.2.ReadsBack Json.Decoder.nestingLimit) (graph : Graph) :
    perform? "cfg" graph (entryStatement entry) =
      some { graph with metadata := graph.metadata.insert entry.1 entry.2 } := by
  show ((valueTerm entry.2).value?).bind _ = _
  rw [value?_valueTerm readsBack]
  rfl

theorem perform?_functionsStatement {functions : List FunctionScript}
    (readBack : ∀ function ∈ functions, function.ReadsBack) (graph : Graph) :
    perform? "cfg" graph (functionsStatement functions) =
      (graph.addFunctions (functions.map FunctionScript.build) false).toOption := by
  have drafts : (Term.list (functions.map FunctionScript.term)).items? Term.draft? =
      some (functions.map FunctionScript.build) :=
    items?_map fun function member => FunctionScript.draft?_term (readBack function member)
  show ((Term.list (functions.map FunctionScript.term)).items? Term.draft?).bind _ = _
  rw [drafts]
  rfl

theorem foldlM_entryStatement {entries : List (String × Json.Value)}
    (readBack : ∀ entry ∈ entries, entry.2.ReadsBack Json.Decoder.nestingLimit) (graph : Graph) :
    (entries.map entryStatement).foldlM (perform? "cfg") graph =
      some { graph with metadata := graph.metadata.insertMany entries } := by
  induction entries generalizing graph with
  | nil =>
    rw [Std.ExtTreeMap.insertMany_nil]
    rfl
  | cons entry rest inductionHypothesis =>
    rw [List.forall_mem_cons] at readBack
    rw [List.map_cons, List.foldlM_cons, perform?_entryStatement readBack.1,
      Std.ExtTreeMap.insertMany_cons]
    exact inductionHypothesis readBack.2 _

theorem foldlM_normalizerStatement (normalizer : Option String) :
    (normalizer.toList.map normalizerStatement).foldlM (perform? "cfg") Graph.empty =
      some { Graph.empty with normalizer } := by
  cases normalizer <;> rfl

/-- A script without functions builds the graph that it starts from, any other adds all of its
functions to it at once. -/
theorem execute?_statements {script : BuildScript} (readsBack : script.ReadsBack) :
    execute? script.statements =
      if script.functions.isEmpty then some script.start
      else (script.start.addFunctions
        (script.functions.map FunctionScript.build) false).toOption := by
  have started : (script.normalizer.toList.map normalizerStatement ++
      script.metadata.map entryStatement).foldlM (perform? "cfg") Graph.empty =
        some script.start := by
    rw [List.foldlM_append, foldlM_normalizerStatement]
    refine (foldlM_entryStatement readsBack.own _).trans ?_
    rw [start, Metadata.ofFields, Std.ExtTreeMap.ofList_eq_insertMany_empty]
    rfl
  show (script.normalizer.toList.map normalizerStatement ++ script.metadata.map entryStatement ++
    if script.functions.isEmpty then [] else [functionsStatement script.functions]).foldlM
      (perform? "cfg") Graph.empty = _
  rw [List.foldlM_append, started]
  cases script.functions.isEmpty with
  | true => rfl
  | false =>
    have added := perform?_functionsStatement readsBack.functions script.start
    show perform? "cfg" script.start (functionsStatement script.functions) >>= pure = _
    rw [bind_pure]
    exact added

/-- The text of a script builds the graph that the script describes. -/
theorem rebuild?_text {script : BuildScript} (readsBack : script.ReadsBack) :
    rebuild? script.text =
      if script.functions.isEmpty then some script.start
      else (script.start.addFunctions
        (script.functions.map FunctionScript.build) false).toOption := by
  rw [rebuild?, statements?_text, Option.bind_some, execute?_statements readsBack]

end BuildScript

end FlowGraph
