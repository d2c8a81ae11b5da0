import SourceDoc.Report.Basic
import SourceDoc.Service.Request
import SourceDoc.Summary.Contexts

/-!
# Responses

A response tells the result of one unit, the report of many, the facts about a repository, or what is
not in order with the request.

Responses are sent in an encoding that has no bytes for surrogates.  The texts of a response that may
hold one are those that come from comments, literals and faults; a response with a surrogate in one
of them cannot be sent.
-/

namespace SourceDoc

/-! ### Texts that may hold surrogates -/

/-- The texts of a parameter. -/
def ParameterModel.texts (p : ParameterModel) : List WideString :=
  p.description.toList

/-- The texts of a field. -/
def FieldModel.texts (f : FieldModel) : List WideString :=
  f.description.toList ++ f.initialValue.toList ++ f.annotations.map (·.2)

/-- The texts of a method. -/
def MethodModel.texts (m : MethodModel) : List WideString :=
  m.description.toList ++ m.returnDescription.toList ++ m.parameters.flatMap (·.texts) ++
    m.exceptions ++ m.exceptionDescriptions.map (·.1) ++ m.exceptionDescriptions.map (·.2) ++
    m.annotations.map (·.2) ++ [m.sourceCode]

/-- The texts of a unit. -/
def UnitModel.texts (u : UnitModel) : List WideString :=
  u.description.toList ++ u.fields.flatMap (·.texts) ++ u.methods.flatMap (·.texts) ++
    u.annotations.map (·.2) ++ [u.sourceCode]

/-- The texts of a result. -/
def UnitResult.texts (result : UnitResult) : List WideString :=
  match result.outcome with
  | .model model => model.texts
  | .skip skip => [skip.detail]

end SourceDoc

namespace SourceDoc.Service

/-- The facts about a repository. -/
structure SummaryPage where
  /-- The overview. -/
  overview : Summary.Overview
  /-- The introduction. -/
  gettingStarted : Summary.GettingStarted
  /-- The questions and answers. -/
  faq : Summary.Faq
  /-- The pages of the units. -/
  classes : List Summary.ClassContext
  /-- The units that are left out, with their reasons. -/
  skipped : List (String × Skip)
  deriving DecidableEq, Repr

/-- The facts that a report holds. -/
def SummaryPage.ofReport (report : Report) (repositoryName : String) : SummaryPage where
  overview := Summary.overview report.models repositoryName
  gettingStarted := Summary.gettingStarted report.models repositoryName
  faq := Summary.faq report.models repositoryName
  classes := report.models.map Summary.classContext
  skipped := report.skips

/-- The texts of a page that may hold surrogates. -/
def SummaryPage.texts (page : SummaryPage) : List WideString :=
  page.overview.classSummary :: page.faq.exceptionTypes ::
    page.classes.flatMap (fun c => [c.classDescription, c.sourceCode]) ++
    page.skipped.map (·.2.detail)

/-- An answer. -/
inductive Response where
  /-- The result of one unit. -/
  | result (result : UnitResult)
  /-- The report of many units. -/
  | report (report : Report)
  /-- The facts about a repository. -/
  | summary (page : SummaryPage)
  /-- The request is not in order. -/
  | invalid (issues : List Issue)
  /-- The service failed. -/
  | failed
  deriving DecidableEq, Repr

namespace Response

/-- The texts of a response that may hold surrogates. -/
def texts : Response → List WideString
  | .result r => r.texts
  | .report r => r.results.flatMap (·.texts)
  | .summary page => page.texts
  | .invalid _ => []
  | .failed => []

/-- The response that is sent: the service fails if the response has no encoding. -/
def sent (response : Response) : Response :=
  if response.texts.all (·.isEncodable) then response else .failed

end Response

end SourceDoc.Service
