/-
This file lists what can go wrong with a graph, each cause with what is needed to report it,
and gives every cause its kind and its message. That a text or a file cannot be read is a
cause of its own; the reason behind it is not part of the message.
-/

import FlowGraph.Edge

namespace FlowGraph

/-- The kinds of failure a caller can tell apart. -/
inductive ErrorKind where
  | notFound
  | invalidArgument
  | conflict
  | structuralAssumptionViolated
  | unsupported
  | inputOutput
  deriving DecidableEq

/-- What can go wrong with a graph. -/
inductive GraphError where
  | functionNotFound (address : Address)
  | functionNameNotFound (name : String)
  | blockNotFound (address : Address)
  | noBlockContaining (address : Address)
  | noEntryBlock (function : Address)
  | architectureUndetected
  | missingFunctionAddress (name : Option String)
  | addressCountMismatch (block : Address) (lines addresses : Nat)
  | duplicateFunction (address : Address)
  | duplicateBlock (address : Address)
  | overrideUnsupported (address : Address)
  | emptyLibrary
  | noInsertionGap (size : Address)
  | invalidInsertionAddress (offset size : Address)
  | stubBlockCount (name : String) (function : Address) (blocks : Nat)
  | unknownArchitecture (name : String)
  | orphanNode (address : Address)
  | unsupportedBackend (name : String)
  | unknownEdgeKind (name : String)
  | unreadableText
  | fileAccess
  deriving DecidableEq

namespace GraphError

/-- The kind of a failure. -/
def kind : GraphError → ErrorKind
  | .functionNotFound _ | .functionNameNotFound _ | .blockNotFound _ | .noBlockContaining _
  | .noEntryBlock _ | .architectureUndetected => .notFound
  | .missingFunctionAddress _ | .addressCountMismatch .. | .emptyLibrary | .orphanNode _
  | .unknownEdgeKind _ | .unreadableText => .invalidArgument
  | .duplicateFunction _ | .duplicateBlock _ | .noInsertionGap _
  | .invalidInsertionAddress .. => .conflict
  | .stubBlockCount .. => .structuralAssumptionViolated
  | .overrideUnsupported _ | .unknownArchitecture _ | .unsupportedBackend _ => .unsupported
  | .fileAccess => .inputOutput

/-- A name that may be absent, as messages show it. -/
def describeName : Option String → String
  | none => "None"
  | some name => "Some(" ++ Text.quoted name ++ ")"

/-- The message of a failure. -/
def message : GraphError → String
  | .functionNotFound address => "No function at address " ++ Text.hexAddress address
  | .functionNameNotFound name => "No function named " ++ Text.quoted name
  | .blockNotFound address => "No basic block at address " ++ Text.hexAddress address
  | .noBlockContaining address => "No basic block contains address " ++ Text.hexAddress address
  | .noEntryBlock address => "Function at " ++ Text.hexAddress address ++ " has no entry block"
  | .architectureUndetected =>
    "No 'arch' or 'architecture' metadata key, and no known instruction pattern matched"
  | .missingFunctionAddress name =>
    "Function " ++ describeName name ++ " has no address and no blocks"
  | .addressCountMismatch address lines addresses =>
    "Block at " ++ Text.hexAddress address ++ " has " ++ toString lines ++ " asm lines but " ++
      toString addresses ++ " memory addresses"
  | .duplicateFunction address =>
    "Function address " ++ Text.hexAddress address ++ " already exists in this CFG"
  | .duplicateBlock address =>
    "Basic block address " ++ Text.hexAddress address ++ " already exists in this CFG"
  | .overrideUnsupported address =>
    "Overriding existing address " ++ Text.hexAddress address ++ " is not supported"
  | .emptyLibrary => "Library has no blocks to insert"
  | .noInsertionGap size =>
    "No gap of " ++ Text.hexAddress size ++ " bytes available to insert library"
  | .invalidInsertionAddress offset size =>
    "Cannot insert library of " ++ Text.hexAddress size ++ " bytes at address " ++
      Text.hexAddress offset
  | .stubBlockCount name address blocks =>
    "Cannot link " ++ Text.quoted name ++ " into library: function at " ++
      Text.hexAddress address ++ " has " ++ toString blocks ++ " blocks (expected 1)"
  | .unknownArchitecture name => "Unknown architecture: " ++ Text.quoted name
  | .orphanNode address =>
    "Graph node " ++ Text.hexAddress address ++ " is not listed by any function"
  | .unsupportedBackend name => "Unknown adjacency matrix backend: " ++ Text.quoted name
  | .unknownEdgeKind name => "Unknown edge type: " ++ Text.quoted name
  | .unreadableText => "Serialization error"
  | .fileAccess => "IO error"

end GraphError

end FlowGraph
