/-
This file runs commands: it computes what a command prints, the files it leaves behind and its
exit code. Reasons for a failure are not part of the output.
-/

import FlowGraph.BuildScript
import FlowGraph.CommandLine
import FlowGraph.FileOperation

namespace FlowGraph

namespace Program

/-- What a run leads to. -/
structure Result where
  exitCode : Nat
  output : String
  files : Files

/-- The exit code of a success. -/
def successCode : Nat := 0

/-- The exit code of a failure. -/
def failureCode : Nat := 1

/-- The exit code of a command line that cannot be read. -/
def usageCode : Nat := 2

/-- The exit code of a run that could not go on. -/
def abortCode : Nat := 101

/-- The line that tells the version. -/
def versionLine : String := "bcfg 0.1.0\n"

/-- The exit code of a failure. -/
def codeOf : Failure → Nat
  | .compact failure => if failure.stops then abortCode else failureCode
  | _ => failureCode

/-! ### Reports -/

/-- A text of at least the given width, with blanks in front. -/
def padLeft (width : Nat) (text : String) : String :=
  String.ofList (List.replicate (width - text.length) ' ') ++ text

/-- Lines as a text. -/
def unlines (lines : List String) : String := String.join (lines.map fun line => line ++ "\n")

/-- How many of the most frequent lines are reported. -/
def reportedLines : Nat := 10

/-- The most frequent lines with their counts; of equally frequent ones the lesser comes first. -/
def frequentLines (graph : Graph) : List (String × Nat) :=
  (graph.lineCounts.toList.mergeSort fun left right =>
    if left.2 ≠ right.2 then right.2 < left.2 else left.1 ≤ right.1).take reportedLines

/-- The line on the instruction set, if it is known. -/
def architectureLines {Problem : Type} (found : Except Problem Architecture) : List String :=
  match found with
  | .ok architecture => ["architecture: " ++ architecture.name]
  | .error _ => []

/-- The lines on edges that wait for a block, if there are any. -/
def danglingLines (edges : List Edge) : List String :=
  if edges.isEmpty then []
  else
    ("dangling edges: " ++ toString edges.length) :: edges.map fun edge => "  " ++ edge.describe

/-- The report on a graph. -/
def graphReport (graph : Graph) : String :=
  unlines (graph.describe :: architectureLines (graph.architecture.map Prod.fst) ++
    danglingLines graph.danglingEdges ++
    (frequentLines graph).map fun entry => padLeft 8 (toString entry.2) ++ "  " ++ entry.1)

/-- The report on a compact graph that was read from a file. -/
def compactReport (compact : Compact) : Except CompactError String := do
  let description ← compact.describe
  return unlines (description :: architectureLines compact.architecture ++ [
    "tokens: " ++ toString (compact.tokens.contents []).size,
    "widths: asm_lines=" ++ toString compact.lines.width.bits ++ "b graph_c=" ++
      toString compact.targets.width.bits ++ "b graph_r=" ++
      toString compact.targetOffsets.width.bits ++ "b",
    "memory addresses: " ++ (if compact.keepsAddresses then "true" else "false")])

/-- A matrix as text: rows, or a line for each entry. -/
def matrixReport : Matrix → String
  | .dense rows =>
    unlines (rows.map fun row => String.intercalate " " (row.map fun entry => toString entry))
  | .sparse rows columns values =>
    unlines ((rows.zip (columns.zip values)).map fun entry =>
      toString entry.1 ++ " " ++ toString entry.2.1 ++ " " ++ toString entry.2.2)

/-! ### Commands -/

/-- A report, or the failure. -/
def report (files : Files) (text : Except Failure String) : Result :=
  match text with
  | .ok text => ⟨successCode, text, files⟩
  | .error failure => ⟨codeOf failure, "", files⟩

/-- The text of an operation's result, or the failure, with the files it leaves behind. -/
def finish {Content : Type} (outcome : FileOperation.Outcome Content)
    (text : Content → String) : Result :=
  report outcome.2 (outcome.1.map text)

/-- Runs a command. -/
def runCommand (files : Files) : CommandLine.Command → Result
  | .stats input .graph =>
    report files (((files.readGraph input).mapError .graph).map graphReport)
  | .stats input .compact =>
    report files ((files.readCompact input >>= compactReport).mapError .compact)
  | .compact input output normalizer options =>
    finish (FileOperation.compactFile files input output normalizer options) fun _ => ""
  | .batch inputs output normalizer options =>
    finish (FileOperation.compactFiles files inputs output normalizer options) unlines
  | .adjacency input sparse =>
    let matrix := do (← files.readCompact input).adjacency "np" sparse
    report files ((matrix.mapError .compact).map matrixReport)
  | .insertLibrary host library mapping offset output =>
    finish
      (FileOperation.insertLibrary files host library (Std.ExtTreeMap.ofList mapping) offset output)
      fun offset => Text.hexAddress offset ++ "\n"
  | .buildScript input output =>
    match files.readGraph input, output with
    | .error failure, _ => ⟨codeOf (.graph failure), "", files⟩
    | .ok graph, none => ⟨successCode, graph.buildScript, files⟩
    | .ok graph, some output =>
      match files.write output ⟨graph.buildScript, false⟩ with
      | .ok files => ⟨successCode, "", files⟩
      | .error _ => ⟨failureCode, "", files⟩

/-- Runs a command line on files. -/
def run (arguments : List String) (files : Files) : Result :=
  match CommandLine.parse arguments with
  | .ok command => runCommand files command
  | .error .usage => ⟨usageCode, "", files⟩
  | .error .help => ⟨successCode, "", files⟩
  | .error .version => ⟨successCode, versionLine, files⟩

end Program

end FlowGraph
