import SourceDoc.Report.Outcome

/-!
# Reports

The report of a run holds one result for each unit.
-/

namespace SourceDoc

/-- A report. -/
structure Report where
  /-- The results. -/
  results : List UnitResult
  deriving DecidableEq, Repr

namespace Report

/-- The models, in the order of the results. -/
def models (report : Report) : List UnitModel := report.results.filterMap (·.model?)

/-- The units that are left out, with their reasons, in the order of the results. -/
def skips (report : Report) : List (String × Skip) :=
  report.results.filterMap fun result => result.skip?.map (result.unit, ·)

/-- The line of the log that closes a run. -/
def closing (report : Report) : LogEntry :=
  ⟨.info, "Extraction finished: " ++ toString report.models.length ++ " model(s), " ++
    toString report.skips.length ++ " skipped of " ++ toString report.results.length ++
    " unit(s)"⟩

/-- The report of logged results, and its log. -/
def ofLogged (results : List (UnitResult × LogEntry)) : Report × List LogEntry :=
  let report : Report := ⟨results.map (·.1)⟩
  (report, results.map (·.2) ++ [report.closing])

end Report

end SourceDoc
