import SourceDoc.Report.Run
import SourceDoc.Service.Response

/-!
# Answering requests

The service answers three kinds of requests: for one unit, for many, and for the facts about a
repository.  A request that is not in order is answered with its issues; a fault that is no fault of
the request makes the service fail.  The units that are handled on the way are told in the log, also
if the response cannot be sent.
-/

namespace SourceDoc.Service

/-- What the service can be asked for. -/
inductive Endpoint where
  /-- The result of one unit. -/
  | extract
  /-- The report of many units. -/
  | batch
  /-- The facts about a repository. -/
  | summaries
  deriving DecidableEq, Repr

/-- The endpoint with a path. -/
def Endpoint.ofPath? : String → Option Endpoint
  | "/extract" => some .extract
  | "/extract/batch" => some .batch
  | "/summaries" => some .summaries
  | _ => none

/-- A response, and the log of what was done for it. -/
abbrev Logged := Response × List LogEntry

/-- Loads the unit of a request. -/
def UnitRequest.load (request : UnitRequest) : Except SpanFault Loaded :=
  Loaded.ofSource request.code request.filename

/-- The result of a request for one unit. -/
def respondUnit (request : UnitRequest) : Logged :=
  match request.load with
  | .ok loaded =>
    let (result, entry) := extractLogged loaded
    (.result result, [entry])
  | .error _ => (.failed, [])

/-- The report of a request for many units and its log, if nothing fails. -/
def BatchRequest.run? (ws : Workspace) (workers : Workers) (request : BatchRequest) :
    Option (Report × List LogEntry) := do
  let sources ← (request.units.mapM UnitRequest.load).toOption
  let options : RunOptions :=
    { maxWorkers := request.maxWorkers, preserveOrder := request.preserveOrder }
  (extractUnits ws workers options sources).toOption

/-- The answer to a request for many units, whose report is turned into a response. -/
def respondReport (ws : Workspace) (workers : Workers) (respond : Report → Response)
    (request : BatchRequest) : Logged :=
  match request.run? ws workers with
  | some (report, log) => (respond report, log)
  | none => (.failed, [])

/-- The answer to a request for many units. -/
def respondBatch (ws : Workspace) (workers : Workers) (request : BatchRequest) : Logged :=
  respondReport ws workers .report request

/-- The answer to a request for the facts about a repository. -/
def respondSummary (ws : Workspace) (workers : Workers) (request : SummaryRequest) : Logged :=
  respondReport ws workers (fun report => .summary (.ofReport report request.repositoryName))
    request.batch

/-- The answer to a checked request. -/
def answer {α : Type} (respond : α → Logged) : Checked α → Logged
  | .ok request => respond request
  | .error issues => (.invalid issues, [])

/-- The answer to a request, before it is sent. -/
def prepare (ws : Workspace) (workers : Workers) (endpoint : Endpoint) (body : Payload) : Logged :=
  match endpoint with
  | .extract => answer respondUnit (checkBody unitFields body)
  | .batch => answer (respondBatch ws workers) (checkBody batchFields body)
  | .summaries => answer (respondSummary ws workers) (checkBody summaryFields body)

/-- The answer to a request, and the log of what was done for it. -/
def respond (ws : Workspace) (workers : Workers) (endpoint : Endpoint) (body : Payload) : Logged :=
  let (response, log) := prepare ws workers endpoint body
  (response.sent, log)

end SourceDoc.Service
