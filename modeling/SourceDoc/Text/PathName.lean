import SourceDoc.Text.Casing

/-!
# File names and extensions

The name of a file is the last segment of its path.  The extension of a path begins at its last dot,
provided that no separator follows and that something other than dots stands in front of it in the same
segment.
-/

namespace SourceDoc.Text

/-- The part of a list behind the last occurrence of a separator, or all of it. -/
def afterLast (separator : Char) (text : List Char) : List Char :=
  (text.reverse.takeWhile (· != separator)).reverse

/-- The last segment of a path. -/
def fileName (path : List Char) : List Char :=
  afterLast '/' path

/-- A path cut into its stem and its extension, which keeps its dot. -/
def splitExtension (path : List Char) : List Char × List Char :=
  let tail := afterLast '.' path
  let stem := path.take (path.length - tail.length - 1)
  if tail.length < path.length && !tail.contains '/' && (fileName stem).any (· != '.') then
    (stem, '.' :: tail)
  else (path, [])

/-- The stem of the file that a path names. -/
def fileStem (path : String) : String :=
  String.ofList (splitExtension (fileName path.toList)).1

/-- The extension of a path, in lower case. -/
def fileExtension (path : String) : String :=
  String.ofList (lower (splitExtension path.toList).2)

end SourceDoc.Text
