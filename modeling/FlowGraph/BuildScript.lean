/-
This file writes the build script of a graph: the text of a program that builds an equal graph
with calls to builders. A script is first a list of calls and then laid out. Edges that enter a
block are part of it only if they come from outside the graph, because the others come back
with the edges that leave their source.
-/

import FlowGraph.Graph.View

namespace FlowGraph

/-- A call on the builder of a block. -/
inductive BlockCall where
  | label (label : String)
  | lines (lines : List String)
  | lineAddresses (addresses : List Address)
  | metadata (name : String) (value : Json.Value)
  | edgeOut (target : Address) (kind : EdgeKind)
  | edgeIn (source : Address) (kind : EdgeKind)

/-- A block and the calls that fill it. -/
structure BlockScript where
  address : Address
  calls : List BlockCall

/-- A call on the builder of a function. -/
inductive FunctionCall where
  | name (name : String)
  | markExternal
  | metadata (name : String) (value : Json.Value)

/-- A function, the calls that fill it, and its blocks. -/
structure FunctionScript where
  address : Address
  calls : List FunctionCall
  blocks : List BlockScript

/-- The counts that a script announces, and what it does to an empty graph. -/
structure BuildScript where
  functionCount : Nat
  blockCount : Nat
  edgeCount : Nat
  lineCount : Nat
  normalizer : Option String
  metadata : List (String × Json.Value)
  functions : List FunctionScript

/-! ### From a graph to calls -/

/-- The calls for a block of a graph. -/
def BlockScript.ofBlock (graph : Graph) (block : Block) : BlockScript where
  address := block.address
  calls :=
    block.labels.toList.map .label ++
      (if block.lines.isEmpty then [] else [.lines block.lines]) ++
      (if block.lineAddresses.isEmpty then [] else [.lineAddresses block.lineAddresses]) ++
      block.metadata.toList.map (fun entry => .metadata entry.1 entry.2) ++
      block.edgesOut.map (fun edge => .edgeOut edge.target edge.kind) ++
      (block.edgesIn.filter fun edge => !graph.blocks.contains edge.source).map
        fun edge => .edgeIn edge.source edge.kind

/-- The calls for a function of a graph. -/
def FunctionScript.ofFunction (graph : Graph) (function : Function) : FunctionScript where
  address := function.address
  calls :=
    (function.name.toList.map .name) ++ (if function.isExternal then [.markExternal] else []) ++
      function.metadata.toList.map fun entry => .metadata entry.1 entry.2
  blocks := (graph.blocksOf function).map (BlockScript.ofBlock graph)

/-- The script of a graph. -/
def BuildScript.ofGraph (graph : Graph) : BuildScript where
  functionCount := graph.functionCount
  blockCount := graph.blockCount
  edgeCount := graph.edgeCount
  lineCount := graph.lineCount
  normalizer := graph.normalizer
  metadata := graph.metadata.toList
  functions := graph.functionList.map (FunctionScript.ofFunction graph)

/-! ### From calls to text -/

/-- A JSON value as an expression that reads it back. -/
def valueExpression (value : Json.Value) : String :=
  "serde_json::from_str(" ++ Text.quoted value.toText ++ ")?"

/-- The kind of an edge as an expression. -/
def EdgeKind.expression : EdgeKind → String
  | .normal => "EdgeType::Normal"
  | .functionCall => "EdgeType::FunctionCall"

/-- A list as an array expression. -/
def arrayExpression (items : List String) : String := "[" ++ String.intercalate ", " items ++ "]"

/-- Spaces at the start of a line. -/
def indent (width : Nat) : String := String.ofList (List.replicate width ' ')

/-- A call as text. -/
def BlockCall.text : BlockCall → String
  | .label text => ".with_label(" ++ Text.quoted text ++ ")"
  | .lines texts => ".with_asm_lines(" ++ arrayExpression (texts.map Text.quoted) ++ ")"
  | .lineAddresses addresses =>
    ".with_asm_memory_addresses(" ++ arrayExpression (addresses.map Text.hexAddress) ++ ")"
  | .metadata name value =>
    ".with_metadata(" ++ Text.quoted name ++ ", " ++ valueExpression value ++ ")"
  | .edgeOut target kind =>
    ".with_edge_out(" ++ Text.hexAddress target ++ ", " ++ kind.expression ++ ")"
  | .edgeIn source kind =>
    ".with_edge_in(" ++ Text.hexAddress source ++ ", " ++ kind.expression ++ ")"

/-- A block with its calls, one on a line. -/
def BlockScript.text (script : BlockScript) : String :=
  indent 16 ++ "BasicBlock::new(" ++ Text.hexAddress script.address ++ ")" ++
    String.join (script.calls.map fun call => "\n" ++ indent 20 ++ call.text) ++ ",\n"

/-- A call as text. -/
def FunctionCall.text : FunctionCall → String
  | .name symbol => ".with_name(" ++ Text.quoted symbol ++ ")"
  | .markExternal => ".extern_function(true)"
  | .metadata key value =>
    ".with_metadata(" ++ Text.quoted key ++ ", " ++ valueExpression value ++ ")"

/-- A function with its calls and blocks. -/
def FunctionScript.text (script : FunctionScript) : String :=
  indent 8 ++ "FunctionBuilder::at(" ++ Text.hexAddress script.address ++ ")" ++
    String.join (script.calls.map fun call => "\n" ++ indent 12 ++ call.text) ++
    "\n" ++ indent 12 ++ ".with_blocks([\n" ++ String.join (script.blocks.map BlockScript.text) ++
    indent 12 ++ "]),\n"

/-- The statement that adds all functions; none without functions. -/
def BuildScript.functionsText (functions : List FunctionScript) : String :=
  if functions.isEmpty then ""
  else
    "cfg.add_function(\n    [\n" ++ String.join (functions.map FunctionScript.text) ++
      "    ],\n    false,\n)?;\n"

/-- The whole script. -/
def BuildScript.text (script : BuildScript) : String :=
  "// AUTO-GENERATED: " ++ toString script.functionCount ++ " functions, " ++
    toString script.blockCount ++ " basic blocks, " ++ toString script.edgeCount ++
    " edges, " ++ toString script.lineCount ++ " lines of assembly.\n" ++
    "let mut cfg = Cfg::new();\n" ++
    (match script.normalizer with
      | none => ""
      | some name => "cfg.set_normalizer(Some(" ++ Text.quoted name ++ ".to_string()));\n") ++
    String.join (script.metadata.map fun entry =>
      "cfg.metadata.insert(" ++ Text.quoted entry.1 ++ ".to_string(), " ++
        valueExpression entry.2 ++ ");\n") ++
    BuildScript.functionsText script.functions

namespace Graph

/-- The build script of a graph as text. -/
def buildScript (graph : Graph) : String := (BuildScript.ofGraph graph).text

/-- The build script if it takes no more bytes than a writer accepts. -/
def buildScriptWithin? (graph : Graph) (capacity : Nat) : Option String :=
  if graph.buildScript.utf8ByteSize ≤ capacity then some graph.buildScript else none

end Graph

end FlowGraph
