import SourceDoc.Node.OfSource
import SourceDoc.Workspace

/-!
# Source units from files

A file that cannot be read, decoded or parsed gives a failure.  An unknown encoding is no fault of
the file and is handed on, and so is a range of tokens that cannot be found (`LoadFault`).
-/

namespace SourceDoc

/-- What stops the loading of a file and is no fault of the file. -/
inductive LoadFault where
  /-- The encoding cannot be used. -/
  | encoding (diagnosis : Diagnosis)
  /-- The text of a declaration cannot be found. -/
  | span (fault : SpanFault)
  deriving DecidableEq, Repr

/-- The diagnosis of a stop. -/
def LoadFault.diagnosis : LoadFault → Diagnosis
  | .encoding diagnosis => diagnosis
  | .span fault => fault.diagnosis

end SourceDoc
