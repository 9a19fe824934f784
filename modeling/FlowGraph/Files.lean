/-
This file defines the files that commands work on: texts in folders. A file is compressed or
plain; what it holds is its text in both cases. A place is the list of names that lead to it
from the working folder; it may begin with the root folder, or with steps out of the working
folder. A path is followed segment by segment, and everything before its last segment has to
be a folder. The root folder and the folders around the working folder are always there.
-/

import Std.Data.ExtTreeMap
import Std.Data.ExtTreeSet

namespace FlowGraph

/-- A file. -/
structure StoredFile where
  text : String
  compressed : Bool
  deriving DecidableEq

/-- Files by place, and the folders besides the working folder. -/
structure Files where
  files : Std.ExtTreeMap (List String) StoredFile
  folders : Std.ExtTreeSet (List String)

/-- That a file or folder cannot be read, written or made. -/
structure FileFault where
  path : String
  deriving DecidableEq

namespace Files

/-- No files. -/
def empty : Files := ⟨∅, ∅⟩

instance : Inhabited Files := ⟨empty⟩

/-! ### Paths -/

/-- The parts of a text between the places where a character stands, empty ones included. -/
def parts (text : String) (separator : Char) : List String :=
  (text.toList.splitOn separator).map String.ofList

/-- The segments of a path, empty ones included. -/
def segments (path : String) : List String := parts path '/'

/-- The names along a path, without empty segments and references to the same folder. -/
def names (path : String) : List String :=
  (segments path).filter fun segment => segment != "" && segment != "."

/-- The last name of a path. -/
def fileName? (path : String) : Option String :=
  match (names path).getLast? with
  | some ".." => none
  | last => last

/-- The part of a name after its last point; a point at the start does not count. -/
def extension? (path : String) : Option String :=
  match (fileName? path).map fun name => (parts name '.').reverse with
  | some (last :: stem :: rest) => if stem = "" ∧ rest = [] then none else some last
  | _ => none

/-- Whether files at a path are compressed. -/
def isCompressedPath (path : String) : Bool := extension? path == some "zst"

/-- A path as seen from a folder. A path from the root folder stays as it is. -/
def join (folder path : String) : String :=
  if folder = "" ∨ path.startsWith "/" then path
  else if folder.endsWith '/' then folder ++ path
  else folder ++ "/" ++ path

/-- A path without the references to the working folder at its start. -/
def fromHere (path : String) : String :=
  "/".intercalate ((segments path).dropWhile fun segment => segment = "" ∨ segment = ".")

/-- Whether the last step of a path leads to the folder it stands in. -/
def endsInPlace (path : String) : Bool :=
  ((segments path).filter fun segment => segment != "").getLast? == some "."

/-- A text without an ending, if it has it. -/
def withoutEnding (text ending : String) : String :=
  if text.endsWith ending then String.ofList (text.toList.take (text.length - ending.length))
  else text

/-! ### Following paths -/

/-- The name at the start of places that are reached from the root folder. -/
def rootName : String := "/"

/-- Whether there is a folder at a place. -/
def isFolder (store : Files) (place : List String) : Bool :=
  place.all (fun name => name == "..") || place == [rootName] || store.folders.contains place

/-- Whether a place is in the working folder. -/
def isInside (place : List String) : Bool :=
  place.head? != some ".." && place.head? != some rootName

/-- The length of the longest name, in bytes. -/
def longestName : Nat := 255

/-- Whether a file can have a name. -/
def isName (name : String) : Bool :=
  name.utf8ByteSize ≤ longestName && !name.toList.contains '\x00'

/-- The folder where a path begins. -/
def startOf (path : String) : List String := if path.startsWith "/" then [rootName] else []

/-- The place around a place. The root folder is in itself. -/
def around (place : List String) : List String :=
  match place.getLast? with
  | none => [".."]
  | some name =>
    if name = ".." then place ++ [".."]
    else if name = rootName then place
    else place.dropLast

/-- The place to which segments lead from a folder. -/
def follow (store : Files) (place : List String) : List String → Option (List String)
  | [] => some place
  | segment :: rest =>
    if !store.isFolder place then none
    else if segment = "" ∨ segment = "." then store.follow place rest
    else if segment = ".." then store.follow (around place) rest
    else if isName segment then store.follow (place ++ [segment]) rest
    else none

/-- The place of a path. -/
def place? (store : Files) (path : String) : Option (List String) :=
  if path = "" then none else store.follow (startOf path) (segments path)

/-- Whether a path leads to a folder. -/
def leadsToFolder (store : Files) (path : String) : Bool :=
  (store.place? path).any store.isFolder

/-! ### Reading and writing -/

/-- The file at a path. -/
def read (store : Files) (path : String) : Except FileFault StoredFile :=
  match (store.place? path).bind fun place => store.files[place]? with
  | some file => .ok file
  | none => .error ⟨path⟩

/-- Writes a file, replacing the one that was there. -/
def write (store : Files) (path : String) (file : StoredFile) : Except FileFault Files :=
  match store.place? path with
  | none => .error ⟨path⟩
  | some place =>
    if store.isFolder place ∨ (segments path).getLast? = some "" then .error ⟨path⟩
    else .ok { store with files := store.files.insert place file }

/-- Makes the folders along names, from a folder on. -/
def makeAlong (store : Files) (place : List String) : List String → Option Files
  | [] => some store
  | name :: rest =>
    if !store.isFolder place then none
    else if name = ".." then store.makeAlong (around place) rest
    else
      let next := place ++ [name]
      if store.files.contains next || !isName name then none
      else { store with folders := store.folders.insert next }.makeAlong next rest

/-- Makes a folder and all folders around it. A path that ends in place cannot make the folder
it stands in, only those before. -/
def makeFolders (store : Files) (path : String) : Except FileFault Files :=
  let made :=
    if endsInPlace path then
      (store.makeAlong (startOf path) (names path).dropLast).filter fun made =>
        made.leadsToFolder path
    else store.makeAlong (startOf path) (names path)
  match made with
  | some made => .ok made
  | none => .error ⟨path⟩

/-- The store with the folders that lead to a place. -/
def knowFolders (store : Files) (place : List String) : Files :=
  { store with
    folders := (List.range place.length).foldl (fun folders length =>
      folders.insert (place.take length)) store.folders }

/-- The place of a path if every name along it is that of a folder. -/
def plainPlace (path : String) : List String :=
  (names path).foldl
    (fun place name => if name = ".." then around place else place ++ [name]) (startOf path)

/-- Puts a file at a path, in folders that are there from then on. -/
def put (store : Files) (path : String) (file : StoredFile) : Files :=
  let place := plainPlace path
  { store.knowFolders place with files := store.files.insert place file }

/-- The files that another store lacks or holds differently, with their places. -/
def changes (store earlier : Files) : List (List String × StoredFile) :=
  store.files.toList.filter fun entry => earlier.files[entry.1]? != some entry.2

/-- A path to a place. -/
def pathOf (place : List String) : String := "/".intercalate place

/-- The files that another store lacks or holds differently, with their paths. -/
def changedSince (store earlier : Files) : List (String × StoredFile) :=
  (store.changes earlier).map fun entry => (pathOf entry.1, entry.2)

/-- Those among the changed files that are in the working folder. -/
def changedInside (store earlier : Files) : List (String × StoredFile) :=
  ((store.changes earlier).filter fun entry => isInside entry.1).map fun entry =>
    (pathOf entry.1, entry.2)

end Files

end FlowGraph
