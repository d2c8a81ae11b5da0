import SourceDoc.Diagnosis
import SourceDoc.Text.Quoted

/-!
# File systems

Files belong to a system, and what a path leads to is a matter of the system: there may be links,
directories that may not be entered and files that may not be read.  So a file system is known here by
its answers alone (`FileSystem`), and an answer may always be that something went wrong (`SystemFault`).
-/

namespace SourceDoc

open SourceDoc.Text

/-- A directory, as the names on the way down from the root. -/
abbrev Place := List String

/-- The path of a place. -/
def Place.path (place : Place) : String := "/" ++ "/".intercalate place

/-- What went wrong, as a system tells it. -/
structure SystemFault where
  /-- The number of the fault. -/
  number : Nat
  /-- The fault in words. -/
  reason : String
  deriving DecidableEq, Repr

/-- The diagnosis of a fault, which shows the path it is about, if there is one. -/
def SystemFault.diagnosis (fault : SystemFault) (path : Option String) : Diagnosis :=
  ⟨.system, "[Errno " ++ toString fault.number ++ "] " ++ fault.reason ++
    (path.map fun path : String => ": " ++ quoted path).getD ""⟩

/-- What reading a file gives that has been opened. -/
abbrev OpenFile := Except SystemFault (List UInt8)

/-- The files of a system. -/
structure FileSystem where
  /-- Whether a path leads to a file, from a directory. -/
  isFile : Place → String → Bool
  /-- Opens what a path leads to from a directory. -/
  opened : Place → String → Except SystemFault OpenFile

end SourceDoc
