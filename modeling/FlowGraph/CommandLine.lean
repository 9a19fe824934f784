/-
This file reads command lines. Options may stand before and after the other arguments; a long
option takes its value after an equals sign or from the next argument, a short one also
attached to its letter, and letters of options without a value may be joined. After two dashes
everything is an argument. The two options on how much is logged are allowed everywhere.
-/

import Std.Data.ExtTreeMap
import FlowGraph.Compact.Build
import FlowGraph.Text.Blank
import FlowGraph.Text.Natural

namespace FlowGraph

namespace CommandLine

/-! ### Addresses and mappings -/

/-- An address in decimal, or in hexadecimal after `0x`. Blanks around it do not count. -/
def parseAddress (text : String) : Except String Address :=
  let trimmed := Text.trim text.toList
  let read := match trimmed with
    | '0' :: 'x' :: digits => Text.readWord 16 digits
    | '0' :: 'X' :: digits => Text.readWord 16 digits
    | digits => Text.readWord 10 digits
  read.mapError fun fault =>
    "invalid address " ++ Text.quoted (String.ofList trimmed) ++ ": " ++ fault.message

/-- What is before and after the last equals sign. -/
def splitAtLastEquals (text : List Char) : Option (List Char × List Char) :=
  let reversed := text.reverse
  match reversed.dropWhile fun character => character != '=' with
  | [] => none
  | _ :: before =>
    some (before.reverse, (reversed.takeWhile fun character => character != '=').reverse)

/-- A function name and an address with an equals sign between them. -/
def parseMapping (text : String) : Except String (String × Address) :=
  match splitAtLastEquals text.toList with
  | none => .error ("invalid mapping " ++ Text.quoted text ++ ": expected NAME=ADDR")
  | some ([], _) => .error ("invalid mapping " ++ Text.quoted text ++ ": empty function name")
  | some (name, address) =>
    (parseAddress (String.ofList address)).map fun address => (String.ofList name, address)

/-! ### Options -/

/-- What a file is taken to hold. -/
inductive InputFormat where
  | graph
  | compact
  deriving DecidableEq

/-- The format of a name. -/
def InputFormat.ofName? (name : String) : Option InputFormat :=
  if name = "cfg" then some .graph
  else if name = "mem" then some .compact
  else none

/-- What the value of an option has to be. A switch has none. -/
inductive ValueKind where
  | switch
  | text
  | path
  | format
  | address
  | mapping
  deriving DecidableEq

/-- Whether a text can be the value. A path must not be empty. -/
def ValueKind.accepts (kind : ValueKind) (value : String) : Bool :=
  match kind with
  | .switch | .text => true
  | .path => !value.isEmpty
  | .format => (InputFormat.ofName? value).isSome
  | .address => (parseAddress value).isOk
  | .mapping => (parseMapping value).isOk

/-- An option: its names, its value, and whether it may be repeated. -/
structure OptionRule where
  short : Option Char
  long : String
  kind : ValueKind
  repeatable : Bool
  deriving DecidableEq

/-- Whether an option takes a value. -/
def OptionRule.takesValue (rule : OptionRule) : Bool := rule.kind != .switch

/-- An option with a value. -/
def valueRule (short : Option Char) (long : String) (kind : ValueKind) : OptionRule :=
  ⟨short, long, kind, false⟩

/-- An option without a value. -/
def switchRule (short : Option Char) (long : String) : OptionRule :=
  valueRule short long .switch

/-- The options that are allowed everywhere. -/
def commonRules : List OptionRule :=
  [switchRule (some 'v') "verbose", switchRule (some 's') "silent", switchRule (some 'h') "help"]

/-- The options before a command. -/
def outerRules : List OptionRule := switchRule (some 'V') "version" :: commonRules

/-- The option for where the result goes. -/
def outputRule : OptionRule := valueRule (some 'o') "output" .path

/-- The options on how graphs are compacted. -/
def compactRules : List OptionRule :=
  [valueRule (some 'n') "normalizer" .text, switchRule none "keep-addresses",
    switchRule none "force"]

/-- Why no command is run. -/
inductive Stop where
  | usage
  | help
  | version
  deriving DecidableEq

/-- What a command line holds: its arguments, and the options with their values, in order. -/
structure Parsed where
  arguments : List String
  options : List (String × String)

namespace Parsed

/-- Nothing. -/
def empty : Parsed := ⟨[], []⟩

/-- Whether an option was given. -/
def has (parsed : Parsed) (long : String) : Bool := parsed.options.any fun entry => entry.1 == long

/-- The value of an option. -/
def value? (parsed : Parsed) (long : String) : Option String := parsed.options.lookup long

/-- The values of an option that may be repeated. -/
def values (parsed : Parsed) (long : String) : List String :=
  (parsed.options.filter fun entry => entry.1 == long).map fun entry => entry.2

/-- Adds an option, which must not be there yet unless it may be repeated. -/
def give (parsed : Parsed) (rule : OptionRule) (value : String) : Except Stop Parsed :=
  if rule.long = "help" then .error .help
  else if rule.long = "version" then .error .version
  else if parsed.has rule.long && !rule.repeatable then .error .usage
  else if !rule.kind.accepts value then .error .usage
  else .ok { parsed with options := parsed.options ++ [(rule.long, value)] }

/-- Adds an argument, which is a path, if there may be another one. -/
def addArgument (parsed : Parsed) (limit : Option Nat) (argument : String) :
    Except Stop Parsed :=
  if argument.isEmpty || limit.any (· ≤ parsed.arguments.length) then .error .usage
  else .ok { parsed with arguments := parsed.arguments ++ [argument] }

end Parsed

/-- Reads the letters of a short option. The answer names the option that still waits for its
value. -/
def takeShort (rules : List OptionRule) (parsed : Parsed) :
    List Char → Except Stop (Parsed × Option OptionRule)
  | [] => .ok (parsed, none)
  | letter :: rest =>
    match rules.find? fun rule => rule.short == some letter with
    | none => .error .usage
    | some rule =>
      if rule.takesValue then
        match rest with
        | [] => .ok (parsed, some rule)
        | '=' :: value => (parsed.give rule (String.ofList value)).map fun next => (next, none)
        | value => (parsed.give rule (String.ofList value)).map fun next => (next, none)
      else do
        let next ← parsed.give rule ""
        takeShort rules next rest

/-- Reads a long option without its dashes. -/
def takeLong (rules : List OptionRule) (parsed : Parsed) (text : List Char) :
    Except Stop (Parsed × Option OptionRule) :=
  let name := String.ofList (text.takeWhile fun character => character != '=')
  match rules.find? fun rule => rule.long == name with
  | none => .error .usage
  | some rule =>
    match text.dropWhile fun character => character != '=' with
    | [] =>
      if rule.takesValue then .ok (parsed, some rule)
      else (parsed.give rule "").map fun next => (next, none)
    | _ :: value =>
      if rule.takesValue then
        (parsed.give rule (String.ofList value)).map fun next => (next, none)
      else .error .usage

/-- Reads an option. -/
def takeOption (rules : List OptionRule) (parsed : Parsed) (argument : String) :
    Except Stop (Parsed × Option OptionRule) :=
  match argument.toList with
  | '-' :: '-' :: long => takeLong rules parsed long
  | letters => takeShort rules parsed letters.tail

/-- Whether an argument is no option, so that it can also be the value of the option before
it. -/
def isPlain (argument : String) : Bool :=
  match argument.toList with
  | '-' :: _ :: _ => false
  | _ => true

/-- Reads what follows the name of a command: options, and arguments up to a limit. Every piece
is checked when it is read, so that asking for help counts unless something before it is
wrong. -/
def scan (rules : List OptionRule) (limit : Option Nat) (waiting : Option OptionRule)
    (parsed : Parsed) : List String → Except Stop Parsed
  | [] => if waiting.isSome then .error .usage else .ok parsed
  | argument :: rest =>
    match waiting with
    | some rule =>
      if isPlain argument then do
        scan rules limit none (← parsed.give rule argument) rest
      else .error .usage
    | none =>
      if isPlain argument then do
        scan rules limit none (← parsed.addArgument limit argument) rest
      else if argument = "--" then
        rest.foldlM (fun parsed argument => parsed.addArgument limit argument) parsed
      else do
        let (next, waiting) ← takeOption rules parsed argument
        scan rules limit waiting next rest

/-! ### Commands -/

/-- A command with its arguments. -/
inductive Command where
  | stats (input : String) (format : InputFormat)
  | compact (input output normalizer : String) (options : CompactOptions)
  | batch (inputs : List String) (output normalizer : String) (options : CompactOptions)
  | adjacency (input : String) (sparse : Bool)
  | insertLibrary (host library : String) (mapping : List (String × Address))
      (offset : Option Address) (output : String)
  | buildScript (input : String) (output : Option String)

/-- The paths that a command reads. -/
def Command.inputs : Command → List String
  | .stats input _ | .compact input .. | .adjacency input _ | .buildScript input _ => [input]
  | .batch inputs .. => inputs
  | .insertLibrary host library .. => [host, library]

/-- The paths of the files and folders that a command writes. -/
def Command.outputs : Command → List String
  | .stats .. | .adjacency .. => []
  | .compact _ output .. | .batch _ output .. => [output]
  | .insertLibrary _ _ _ _ output => [output]
  | .buildScript _ output => output.toList

/-- A value that has to be given. -/
def needed {Content : Type} (content : Option Content) : Except Stop Content :=
  match content with
  | some content => .ok content
  | none => .error .usage

/-- A result whose failure is one of usage. -/
def checked {Content : Type} (result : Except String Content) : Except Stop Content :=
  result.mapError fun _ => .usage

/-- The options on how graphs are compacted. -/
def compactOptions (parsed : Parsed) : CompactOptions :=
  ⟨parsed.has "keep-addresses", parsed.has "force"⟩

/-- The normalizer that is asked for. -/
def normalizerName (parsed : Parsed) : String := (parsed.value? "normalizer").getD "base"

/-- The format that is asked for. -/
def inputFormat (parsed : Parsed) : InputFormat :=
  ((parsed.value? "format").bind InputFormat.ofName?).getD .graph

/-- The one argument of a command. -/
def onlyPath (parsed : Parsed) : Except Stop String := needed parsed.arguments.head?

/-- Reads what follows the name of a command. Asking for silence and for more output at once is
an error. -/
def scanCommand (rules : List OptionRule) (limit : Option Nat) (arguments : List String) :
    Except Stop Parsed := do
  let parsed ← scan (commonRules ++ rules) limit none .empty arguments
  if parsed.has "verbose" && parsed.has "silent" then throw .usage
  return parsed

/-- The names of the commands. -/
def commandNames : List String :=
  ["stats", "compact", "batch", "adjacency", "insert-library", "build-code", "help"]

/-- What asking for help on something leads to: there is help on every command. -/
def helpOn (arguments : List String) : Stop :=
  match arguments with
  | [] => .help
  | [name] => if commandNames.contains name then .help else .usage
  | _ => .usage

/-- The command of a name with its arguments. -/
def commandNamed (name : String) (arguments : List String) : Except Stop Command := do
  if name = "stats" then
    let parsed ← scanCommand [valueRule none "format" .format] (some 1) arguments
    return .stats (← onlyPath parsed) (inputFormat parsed)
  else if name = "compact" then
    let parsed ← scanCommand (outputRule :: compactRules) (some 1) arguments
    let output ← needed (parsed.value? "output")
    return .compact (← onlyPath parsed) output (normalizerName parsed) (compactOptions parsed)
  else if name = "batch" then
    let parsed ← scanCommand (outputRule :: compactRules) none arguments
    if parsed.arguments.isEmpty then throw .usage
    return .batch parsed.arguments ((parsed.value? "output").getD "output")
      (normalizerName parsed) (compactOptions parsed)
  else if name = "adjacency" then
    let parsed ← scanCommand [switchRule none "sparse"] (some 1) arguments
    return .adjacency (← onlyPath parsed) (parsed.has "sparse")
  else if name = "insert-library" then
    let parsed ← scanCommand
      [⟨some 'm', "map", .mapping, true⟩, valueRule none "offset" .address, outputRule]
      (some 2) arguments
    let mapping ← (parsed.values "map").mapM fun text => checked (parseMapping text)
    let offset ← (parsed.value? "offset").mapM fun text => checked (parseAddress text)
    let output ← needed (parsed.value? "output")
    match parsed.arguments with
    | [host, library] => return .insertLibrary host library mapping offset output
    | _ => throw .usage
  else if name = "build-code" then
    let parsed ← scanCommand [outputRule] (some 1) arguments
    return .buildScript (← onlyPath parsed) (parsed.value? "output")
  else if name = "help" then throw (helpOn arguments)
  else throw .usage

/-- Reads what comes before the command, and then the command. -/
def parseFrom (parsed : Parsed) : List String → Except Stop Command
  | [] => .error .usage
  | argument :: rest =>
    if isPlain argument then do
      let command ← commandNamed argument rest
      if parsed.has "verbose" && parsed.has "silent" then throw .usage
      return command
    else if argument = "--" then .error .usage
    else do
      let (next, _) ← takeOption outerRules parsed argument
      parseFrom next rest

/-- Reads a command line. -/
def parse (arguments : List String) : Except Stop Command := parseFrom .empty arguments

end CommandLine

end FlowGraph
