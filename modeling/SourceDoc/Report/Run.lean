import SourceDoc.Files.Load
import SourceDoc.Report.Basic
import SourceDoc.Report.Schedule
import SourceDoc.Settings.Load

/-!
# Runs over many units

A run handles units that are loaded already, or files.  What the caller does not choose comes from
the settings.
-/

namespace SourceDoc

/-- What the caller of a run may choose. -/
structure RunOptions where
  /-- How many units are handled at once. -/
  maxWorkers : Option Int := none
  /-- Whether results are in the order of the units. -/
  preserveOrder : Option Bool := none
  /-- The settings. -/
  settings : Option Settings := none
  deriving DecidableEq, Repr

/-- The order in which workers finish, for every number of tasks. -/
abbrev Workers := (count : Nat) → Schedule count

namespace RunOptions

/-- The settings of a run: those given, or those that are loaded. -/
def effectiveSettings (options : RunOptions) (ws : Workspace) : Except SettingsFault Settings :=
  match options.settings with
  | some settings => .ok settings
  | none => (loadSettings ws).2

/-- The number of workers and whether order is kept; settings are looked at only if one of the two
is not chosen. -/
def effective (options : RunOptions) (ws : Workspace) : Except SettingsFault (Int × Bool) :=
  match options.maxWorkers, options.preserveOrder with
  | some workers, some preserve => .ok (workers, preserve)
  | workers, preserve =>
    (options.effectiveSettings ws).map fun settings =>
      (workers.getD settings.maxWorkers, preserve.getD settings.preserveOrder)

end RunOptions

/-- The report of a task for each item, and its log. -/
def runReport {α : Type} (workers : Workers) (task : α → UnitResult × LogEntry) (items : List α)
    (maxWorkers : Int) (preserveOrder : Bool) : Report × List LogEntry :=
  Report.ofLogged (runAll task items maxWorkers preserveOrder (workers items.length))

/-- The report of units that are loaded already, and its log. -/
def extractUnits (ws : Workspace) (workers : Workers) (options : RunOptions)
    (sources : List Loaded) : Except SettingsFault (Report × List LogEntry) :=
  (options.effective ws).map fun (maxWorkers, preserveOrder) =>
    runReport workers extractLogged sources maxWorkers preserveOrder

end SourceDoc
