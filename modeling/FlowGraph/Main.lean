/-
This file is the command line of the program. It reads the files that a command names, runs the
command and writes the files that the command changed. Compressed files cannot be read or
written here: one that is named as an input counts as unreadable, and a result that would have
to be compressed is reported as a failure.
-/

import FlowGraph.Program

namespace FlowGraph.Main

/-- Reads a file, if that is possible. -/
def readInput (files : Files) (path : String) : IO Files :=
  try
    let text ← IO.FS.readFile path
    return files.put path ⟨text, false⟩
  catch _ => return files

/-- The files that a command line names, and the folders that its outputs go to. -/
def readInputs (arguments : List String) : IO Files :=
  match CommandLine.parse arguments with
  | .error _ => return Files.empty
  | .ok command => do
    let known := command.outputs.foldl (fun files path =>
      files.knowFolders (Files.plainPlace path)) Files.empty
    command.inputs.foldlM readInput known

/-- Writes a file. -/
def writeOutput (path : String) (file : StoredFile) : IO Unit := do
  if file.compressed then throw (IO.userError (path ++ ": compressed files cannot be written"))
  IO.FS.writeFile path file.text

/-- Makes the folder of a batch, and writes the files that a run changed. -/
def writeOutputs (arguments : List String) (changed : List (String × StoredFile)) : IO Unit := do
  if let .ok (.batch _ folder _ _) := CommandLine.parse arguments then
    unless changed.isEmpty do IO.FS.createDirAll folder
  for (path, file) in changed do
    writeOutput path file

end FlowGraph.Main

open FlowGraph in
/-- Runs the command line. -/
def main (arguments : List String) : IO UInt32 := do
  let before ← Main.readInputs arguments
  let result := Program.run arguments before
  try
    Main.writeOutputs arguments (result.files.changedSince before)
    IO.print result.output
    return UInt32.ofNat result.exitCode
  catch failure =>
    IO.eprintln (toString failure)
    return UInt32.ofNat Program.failureCode
