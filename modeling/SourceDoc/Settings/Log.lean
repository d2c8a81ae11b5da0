import SourceDoc.Settings.Load

/-!
# Setting up the log

The level of the log is given by a name from the vocabulary of the log.  That vocabulary belongs to the
log and holds more than levels (`LogTerm`): a switch that is on counts as a level without a name, a name
for nothing leaves the level as it is found, and everything else is refused.
-/

namespace SourceDoc

open SourceDoc.Text

/-- What a name of the log's vocabulary stands for. -/
inductive LogTerm where
  /-- A level. -/
  | level (name : String)
  /-- A switch that is on. -/
  | switch
  /-- Nothing. -/
  | nothing
  /-- A text. -/
  | text (value : String)
  /-- Something else, as it is shown. -/
  | other (shown : String)
  deriving DecidableEq, Repr

/-- A log, before it is set up. -/
structure Log where
  /-- What the log knows by a name. -/
  term? : String → Option LogTerm
  /-- The level that the log is found with. -/
  level : String

/-- How the log is set up. -/
structure LogSetup where
  /-- The least level that is written. -/
  level : String
  /-- The form of a line. -/
  format : String
  deriving DecidableEq, Repr

/-- The form of a line of the log. -/
def logFormat : String := "%(asctime)s - %(name)s - %(levelname)s - %(message)s"

/-- The setup of the log that settings ask for. -/
def LogSetup.ofSettings (log : Log) (settings : Settings) : Except SettingsFault LogSetup :=
  match log.term? settings.logLevel with
  | some (.level name) => .ok ⟨name, logFormat⟩
  | some .switch => .ok ⟨"Level True", logFormat⟩
  | some .nothing => .ok ⟨log.level, logFormat⟩
  | some (.text value) => .error (.levelIsText value)
  | some (.other shown) => .error (.levelIsOther shown)
  | none => .error (.noSuchLevel settings.logLevel)

/-- Sets up the log, with the given settings or those that are loaded. -/
def setUpLog (log : Log) (ws : Workspace) (given : Option Settings) :
    Workspace × Except SettingsFault LogSetup :=
  match given with
  | some settings => (ws, LogSetup.ofSettings log settings)
  | none =>
    let (ws, settings) := loadSettings ws
    (ws, settings.bind (LogSetup.ofSettings log))

end SourceDoc
