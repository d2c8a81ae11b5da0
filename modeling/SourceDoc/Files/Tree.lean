import SourceDoc.Workspace

/-!
# Trees of files

The simplest file system is a tree of files and directories below one root, without links, in which
everything may be read.  A path is walked segment by segment from a directory, or from the root if it
begins with a slash, and each segment needs a directory to start from.  What is above the root is the
root.
-/

namespace SourceDoc

open SourceDoc.Text

/-- What stands at a place of a tree. -/
inductive Content where
  /-- A file with its bytes. -/
  | file (bytes : List UInt8)
  | directory
  deriving DecidableEq, Repr

/-- A tree of files.  The directories on the way to an entry need no entries of their own. -/
structure FileTree where
  /-- The files and directories. -/
  entries : List (Place × Content)
  deriving DecidableEq, Repr

namespace SystemFault

/-- Nothing has the name. -/
def notFound : SystemFault := ⟨2, "No such file or directory"⟩

/-- A path goes on behind a file. -/
def notDirectory : SystemFault := ⟨20, "Not a directory"⟩

/-- A directory is taken for a file. -/
def isDirectory : SystemFault := ⟨21, "Is a directory"⟩

/-- A path or a name in it is too long. -/
def nameTooLong : SystemFault := ⟨36, "File name too long"⟩

end SystemFault

/-- The segments of a path between its slashes. -/
def splitSegments : List Char → List (List Char)
  | [] => [[]]
  | c :: rest =>
    if c = '/' then [] :: splitSegments rest
    else match splitSegments rest with
      | [] => [[c]]
      | segment :: segments => (c :: segment) :: segments

/-- The segments of a path. -/
def segments (path : String) : List String :=
  (splitSegments path.toList).map String.ofList

namespace FileTree

/-- What stands at a place. -/
def at? (tree : FileTree) (place : Place) : Option Content :=
  match tree.entries.find? (·.1 == place) with
  | some entry => some entry.2
  | none =>
    if place.isEmpty || tree.entries.any (place.isPrefixOf ·.1) then some .directory else none

/-- Where the walk of a path begins. -/
def start (directory : Place) (path : String) : Place :=
  if path.toList.head? = some '/' then [] else directory

/-- The place that one segment of a path leads to, whether or not it exists. -/
def next (here : Place) (segment : String) : Place :=
  if segment = "" || segment = "." then here
  else if segment = ".." then here.dropLast
  else here ++ [segment]

/-- The longest name of a file, in bytes. -/
def nameLimit : Nat := 255

/-- The longest path, in bytes. -/
def pathLimit : Nat := 4095

/-- The place that one segment of a path leads to. -/
def step (tree : FileTree) (here : Place) (segment : String) : Except SystemFault Place :=
  match tree.at? here with
  | none => .error .notFound
  | some (.file _) => .error .notDirectory
  | some .directory =>
    if nameLimit < segment.utf8ByteSize then .error .nameTooLong else .ok (next here segment)

/-- The place that a path leads to from a directory. -/
def walk (tree : FileTree) (directory : Place) (path : String) : Except SystemFault Place :=
  if pathLimit < path.utf8ByteSize then .error .nameTooLong
  else (segments path).foldlM tree.step (start directory path)

/-- The bytes of the file that a path leads to from a directory. -/
def read (tree : FileTree) (directory : Place) (path : String) :
    Except SystemFault (List UInt8) := do
  match tree.at? (← tree.walk directory path) with
  | none => throw .notFound
  | some .directory => throw .isDirectory
  | some (.file bytes) => return bytes

/-- The file system of a tree. -/
def system (tree : FileTree) : FileSystem where
  isFile directory path := (tree.read directory path).isOk
  opened directory path := (tree.read directory path).map .ok

/-- A workspace with the files of a tree and the common encodings. -/
def workspace (tree : FileTree) (directory : Place) (environment : Environment) : Workspace :=
  ⟨tree.system, .common, directory, environment⟩

end FileTree

end SourceDoc
