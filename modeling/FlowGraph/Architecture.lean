/-
This file recognizes the instruction set of a graph. Metadata may name it; otherwise the first
characteristic line decides, blocks being read in address order. A line is characteristic if it
holds a keyword as a word of its own that is neither inside an annotation nor inside a quoted
text, that is, without an angle bracket or a quotation mark before it. What follows the keyword
on the line must not contain a line end, except as the first character.
-/

import FlowGraph.Graph.View
import FlowGraph.Text.Case

namespace FlowGraph

/-- An instruction set. -/
inductive Architecture where
  | x86
  | java
  deriving DecidableEq

namespace Architecture

/-- All instruction sets, in the order in which they are tried. -/
def all : List Architecture := [.x86, .java]

/-- The name of an instruction set. -/
def name : Architecture → String
  | .x86 => "x86"
  | .java => "java"

/-- The instruction set of a name; capital letters do not matter. -/
def ofName (name : String) : Except GraphError Architecture :=
  let lowered := Text.lowercase name.toList
  if lowered = "x86".toList then .ok .x86
  else if lowered = "java".toList ∨ lowered = "java-bytecode".toList then .ok .java
  else .error (.unknownArchitecture name)

/-! ### Characteristic lines -/

/-- The keywords of an instruction set. -/
def keywords : Architecture → List (List Char)
  | .x86 => ["add".toList, "mov".toList, "test".toList, "xor".toList]
  | .java => ["invokevirtual".toList, "invokeinterface".toList, "invokespecial".toList,
      "invokestatic".toList, "invokedynamic".toList]

/-- A small letter or digit. -/
def isWordCharacter (character : Char) : Bool :=
  ('a' ≤ character && character ≤ 'z') || ('0' ≤ character && character ≤ '9')

/-- A character that begins or ends an annotation or a quoted text. -/
def isBarrier (character : Char) : Bool :=
  character == '<' || character == '>' || character == '"' || character == '\''

/-- Whether a word ends here and nothing but one line follows. -/
def endsWord : List Char → Bool
  | [] => true
  | character :: rest => !isWordCharacter character && rest.all fun next => next != '\n'

/-- Whether a text begins with a keyword that ends there as a word. -/
def startsWithKeyword (architecture : Architecture) (text : List Char) : Bool :=
  architecture.keywords.any fun keyword =>
    keyword.isPrefixOf text && endsWord (text.drop keyword.length)

/-- Whether a keyword stands in a text; `atWordStart` tells whether one may begin at once. -/
def holdsKeyword (architecture : Architecture) (atWordStart : Bool) : List Char → Bool
  | [] => false
  | character :: rest =>
    (atWordStart && architecture.startsWithKeyword (character :: rest)) ||
      (!isBarrier character && architecture.holdsKeyword (!isWordCharacter character) rest)

/-- Whether a line is characteristic of an instruction set; capital letters do not matter. -/
def matchesLine (architecture : Architecture) (line : String) : Bool :=
  architecture.holdsKeyword true (Text.lowercase line.toList)

/-! ### Graphs -/

/-- The metadata entry that names the instruction set of a graph. -/
def metadataName : String := "architecture"

/-- The instruction set that metadata names, if there is an entry for it. -/
def ofMetadata? (metadata : Metadata) : Option (Except GraphError Architecture) :=
  match (metadata["arch"]?).or (metadata[metadataName]?) with
  | none => none
  | some (.text name) => some (ofName name)
  | some value => some (.error (.unknownArchitecture value.toText))

/-- The instruction set of a block: the first one that some line is characteristic of. -/
def ofBlock? (block : Block) : Option Architecture :=
  all.find? fun architecture => block.lines.any architecture.matchesLine

end Architecture

namespace Graph

/-- The instruction set that the lines show. -/
def detectArchitecture (graph : Graph) : Option Architecture :=
  graph.blockList.findSome? Architecture.ofBlock?

/-- The instruction set that metadata names or the lines show. What the lines show is noted in
the metadata. -/
def architecture (graph : Graph) : Except GraphError (Architecture × Graph) :=
  match Architecture.ofMetadata? graph.metadata with
  | some (.ok found) => .ok (found, graph)
  | some (.error failure) => .error failure
  | none =>
    match graph.detectArchitecture with
    | none => .error .architectureUndetected
    | some found => .ok (found, { graph with
        metadata := graph.metadata.insert Architecture.metadataName (.text found.name) })

end Graph

end FlowGraph
