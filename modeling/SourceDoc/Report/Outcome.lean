import SourceDoc.Model.OfUnit

/-!
# The outcome of one unit

Each unit is handled on its own and gives a result, whatever happens: a model, or a reason for
leaving it out.  What happened is also told in a line of the log.
-/

namespace SourceDoc

/-- How serious a line of the log is. -/
inductive Severity where
  | info
  | warning
  | error
  deriving DecidableEq, Repr

/-- The name of a severity. -/
def Severity.name : Severity → String
  | .info => "INFO"
  | .warning => "WARNING"
  | .error => "ERROR"

/-- A line of the log. -/
structure LogEntry where
  /-- How serious it is. -/
  severity : Severity
  /-- What happened. -/
  message : WideString
  deriving DecidableEq, Repr

/-- What came of a unit. -/
inductive Outcome where
  /-- The unit has a model. -/
  | model (model : UnitModel)
  /-- The unit is left out. -/
  | skip (skip : Skip)
  deriving DecidableEq, Repr

/-- The result of a unit. -/
structure UnitResult where
  /-- The path of the unit. -/
  unit : String
  /-- What came of it. -/
  outcome : Outcome
  deriving DecidableEq, Repr

/-- The model of a result. -/
def UnitResult.model? (result : UnitResult) : Option UnitModel :=
  match result.outcome with
  | .model m => some m
  | .skip _ => none

/-- The reason of a result. -/
def UnitResult.skip? (result : UnitResult) : Option Skip :=
  match result.outcome with
  | .model _ => none
  | .skip s => some s

/-- The result of a unit that is left out because of a defect. -/
def UnitResult.defect (unit : String) (diagnosis : Diagnosis) : UnitResult :=
  ⟨unit, .skip ⟨.internalError, diagnosis.text⟩⟩

/-- The result of what was loaded, and the line of the log that tells it. -/
def extractLogged : Loaded → UnitResult × LogEntry
  | .failure path message =>
    (⟨path, .skip ⟨.parseError, message⟩⟩, ⟨.warning, "Skipping " ++ path ++ ": " ++ message⟩)
  | .unit source =>
    match UnitModel.ofUnit source with
    | .ok model =>
      (⟨source.path, .model model⟩, ⟨.info, "Parsed class: " ++ model.fullyQualifiedName⟩)
    | .error (.skipped skip) =>
      (⟨source.path, .skip skip⟩, ⟨.info, "Skipping " ++ source.path ++ ": " ++ skip.message⟩)
    | .error (.invalid fault) =>
      (.defect source.path fault.diagnosis, ⟨.error, "Extraction failed for " ++ source.path⟩)

/-- The result of what was loaded. -/
def extractUnit (source : Loaded) : UnitResult := (extractLogged source).1

end SourceDoc
