/-
This file holds the operations that read graphs from files and write their results to files.
Every operation returns the files as it leaves them, also when it fails, because what was
written before the failure stays.
-/

import FlowGraph.Compact.Expand
import FlowGraph.Compact.Format
import FlowGraph.Files
import FlowGraph.Library
import FlowGraph.Snapshot

namespace FlowGraph

/-- What can go wrong in an operation on files. -/
inductive Failure where
  | normalizer (unknown : Normalizer.Unknown)
  | graph (failure : GraphError)
  | compact (failure : CompactError)
  | fileAccess
  deriving DecidableEq

namespace Failure

/-- The kind of a failure. -/
def kind : Failure → ErrorKind
  | .normalizer _ => .unsupported
  | .graph failure => failure.kind
  | .compact failure => failure.kind
  | .fileAccess => .inputOutput

/-- The message of a failure, with the part of the program it comes from. -/
def message : Failure → String
  | .normalizer unknown => "Normalizer error: " ++ unknown.message
  | .graph failure => "CFG error: " ++ failure.message
  | .compact failure => "MemCFG error: " ++ failure.message
  | .fileAccess => "IO error"

end Failure

namespace Files

/-! ### Graphs in files -/

/-- The text of a file, if it is compressed exactly when its path says so. A folder can be
opened like a file, but holds no text. -/
def readText (store : Files) (path : String) : Except GraphError String :=
  match store.read path with
  | .error _ => .error (if store.leadsToFolder path then .unreadableText else .fileAccess)
  | .ok file => if file.compressed = isCompressedPath path then .ok file.text
    else .error .unreadableText

/-- Writes a text, compressed if the path says so. -/
def writeText (store : Files) (path text : String) : Except GraphError Files :=
  (store.write path ⟨text, isCompressedPath path⟩).mapError fun _ => .fileAccess

/-- Reads a graph from a file. -/
def readGraph (store : Files) (path : String) : Except GraphError Graph := do
  Graph.ofText (← store.readText path)

/-- Reads a compact graph from a file. -/
def readCompact (store : Files) (path : String) : Except CompactError Compact := do
  Compact.ofText (← (store.readText path).mapError .graph)

/-- Writes a graph to a file. -/
def writeGraph (store : Files) (path : String) (graph : Graph) : Except GraphError Files :=
  store.writeText path graph.toText

/-- Writes a compact graph to a file. -/
def writeCompact (store : Files) (path : String) (compact : Compact) (pool : Pool) :
    Except CompactError Files :=
  (store.writeText path (compact.toText pool)).mapError .graph

end Files

namespace FileOperation

/-- The result of an operation and the files as it leaves them. -/
abbrev Outcome (Content : Type) := Except Failure Content × Files

/-- The name of the file with the shared tokens. -/
def tokensFile : String := "tokens.json"

/-- The name of an input file without the endings that graphs have. -/
def outputStem (path : String) : String :=
  let name := (Files.fileName? path).getD "cfg"
  Files.withoutEnding (Files.withoutEnding name ".zst") ".json"

/-- Reads a graph and compacts it. -/
def compactInput (store : Files) (input normalizer : String) (options : CompactOptions) :
    Except Failure Compact := do
  let normalizer ← (Normalizer.ofName normalizer).mapError .normalizer
  let graph ← (store.readGraph input).mapError .graph
  (Compact.ofGraph [] graph (some normalizer) none options).1.mapError .compact

/-- Compacts the graph of a file into another file. -/
def compactFile (store : Files) (input output normalizer : String) (options : CompactOptions) :
    Outcome Compact :=
  match compactInput store input normalizer options with
  | .error failure => (.error failure, store)
  | .ok compact =>
    match store.writeCompact output compact [] with
    | .error failure => (.error (.compact failure), store)
    | .ok store => (.ok compact, store)

/-- Reads graphs and compacts them over one shared dictionary, which is the only one in the
pool that is returned. -/
def compactInputs (store : Files) (inputs : List String) (normalizer : String)
    (options : CompactOptions) : Except Failure (List Compact × Pool) := do
  let normalizer ← (Normalizer.ofName normalizer).mapError .normalizer
  let graphs ← (inputs.mapM store.readGraph).mapError .graph
  let (compacts, pool) := Compact.ofGraphs [.empty] (some normalizer) 0 options graphs
  return (← compacts.mapError .compact, pool)

/-- Writes compact graphs to their paths, one after another. -/
def writeCompacts (pool : Pool) : Files → List (String × Compact) → Outcome Unit
  | store, [] => (.ok (), store)
  | store, (path, compact) :: rest =>
    match store.writeCompact path compact pool with
    | .error failure => (.error (.compact failure), store)
    | .ok store => writeCompacts pool store rest

/-- Compacts the graphs of files into a folder, with a file for the tokens they share, and
returns the paths of the compact graphs. Inputs with the same name get the same path. -/
def compactFiles (store : Files) (inputs : List String) (folder normalizer : String)
    (options : CompactOptions) : Outcome (List String) :=
  match compactInputs store inputs normalizer options with
  | .error failure => (.error failure, store)
  | .ok (compacts, pool) =>
    match store.makeFolders folder with
    | .error _ => (.error .fileAccess, store)
    | .ok store =>
      let paths := inputs.map fun input => Files.join folder (outputStem input ++ ".mem.json")
      match writeCompacts pool store (paths.zip compacts) with
      | (.error failure, store) => (.error failure, store)
      | (.ok (), store) =>
        let tokens := ((TokenStore.shared 0).contents pool).toJson.toText
        match store.writeText (Files.join folder tokensFile) tokens with
        | .error failure => (.error (.graph failure), store)
        | .ok store => (.ok paths, store)

/-- Reads a host and a library and merges them. -/
def insertInputs (store : Files) (host library : String)
    (mapping : Std.ExtTreeMap String Address) (requested : Option Address) :
    Except GraphError (Address × Graph) := do
  let hostGraph ← store.readGraph host
  let libraryGraph ← store.readGraph library
  hostGraph.insertLibrary libraryGraph mapping requested

/-- Merges the library of one file into the host of another and writes the result. -/
def insertLibrary (store : Files) (host library : String)
    (mapping : Std.ExtTreeMap String Address) (requested : Option Address) (output : String) :
    Outcome Address :=
  match insertInputs store host library mapping requested with
  | .error failure => (.error (.graph failure), store)
  | .ok (offset, merged) =>
    match store.writeGraph output merged with
    | .error failure => (.error (.graph failure), store)
    | .ok store => (.ok offset, store)

end FileOperation

end FlowGraph
