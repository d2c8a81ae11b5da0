import SourceDoc.Encoding.Codec
import SourceDoc.Files.System
import SourceDoc.NameMap
import SourceDoc.Text.Lines

/-!
# Workspaces

A run sees files, encodings, a current directory and an environment.  A file is read in steps that can
fail one after the other: it is opened, its encoding is looked up, its bytes are read, and they are
decoded.
-/

namespace SourceDoc

open SourceDoc.Text

/-- What a run sees of the machine. -/
structure Workspace where
  /-- The files. -/
  files : FileSystem
  /-- The encodings. -/
  codecs : Codecs
  /-- The current directory. -/
  directory : Place
  /-- The environment. -/
  environment : Environment

/-- A text that contains the character with number zero. -/
def hasNull (text : String) : Bool := text.toList.contains (Char.ofNat 0)

namespace Workspace

/-- Opens the file that a path leads to. -/
def openFile (ws : Workspace) (path : String) : Except Diagnosis OpenFile :=
  if hasNull path then .error ⟨.value, "embedded null byte"⟩
  else (ws.files.opened ws.directory path).mapError (·.diagnosis (some path))

/-- The text of the file that a path leads to, in the encoding with a name, its lines ending in line
feeds. -/
def text (ws : Workspace) (path encoding : String) : Except Diagnosis WideString := do
  if hasNull encoding then throw ⟨.value, "embedded null character"⟩
  let file ← ws.openFile path
  let decode ← ws.codecs.decoder encoding
  let bytes ← file.mapError (·.diagnosis none)
  return ⟨universalNewlines .char (← decode bytes)⟩

end Workspace

end SourceDoc
