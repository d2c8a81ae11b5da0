import SourceDoc.Diagnosis
import SourceDoc.Encoding.Codec
import SourceDoc.Files.System
import SourceDoc.NameMap
import SourceDoc.Text.Blank
import SourceDoc.Text.Casing
import SourceDoc.Text.Numeral
import SourceDoc.Text.Quoted

/-!
# Settings

Settings come from four variables of the environment.  A variable that is missing or blank stands
for its default.  Values are checked in a fixed order, and the first that is not in order is
reported.
-/

namespace SourceDoc

open SourceDoc.Text

/-- The variables that settings come from. -/
inductive Variable where
  | sourceEncoding
  | maxWorkers
  | preserveOrder
  | logLevel
  deriving DecidableEq, Repr

namespace Variable

/-- The name of a variable. -/
def name : Variable → String
  | .sourceEncoding => "PARSE_CORE_SOURCE_ENCODING"
  | .maxWorkers => "PARSE_CORE_MAX_WORKERS"
  | .preserveOrder => "PARSE_CORE_PRESERVE_ORDER"
  | .logLevel => "PARSE_CORE_LOG_LEVEL"

/-- What a variable stands for if it is missing or blank. -/
def fallback : Variable → List Char
  | .sourceEncoding => "utf-8".toList
  | .maxWorkers => "1".toList
  | .preserveOrder => "true".toList
  | .logLevel => "INFO".toList

/-- The value of a variable, without the blanks around it. -/
def value (v : Variable) (environment : Environment) : List Char :=
  let given := trim ((NameMap.get? environment v.name).getD "").toList
  if given.isEmpty then v.fallback else given

end Variable

/-- The settings of a run. -/
structure Settings where
  /-- The encoding of source files. -/
  sourceEncoding : String := "utf-8"
  /-- How many units are handled at once. -/
  maxWorkers : Int := 1
  /-- Whether results are in the order of the units. -/
  preserveOrder : Bool := true
  /-- The level of the log. -/
  logLevel : String := "INFO"
  deriving DecidableEq, Repr

/-- Why there are no settings. -/
inductive SettingsFault where
  /-- No encoding has the name. -/
  | unknownEncoding (value : String)
  /-- The number of workers is no number. -/
  | notInteger (value : String)
  /-- The number of workers is too small. -/
  | tooFew (workers : Int)
  /-- The flag is neither true nor false. -/
  | notFlag (value : String)
  /-- No level of the log has the name. -/
  | unknownLevel (value : String)
  /-- The file with variables cannot be opened, or not be read once it is open. -/
  | unreadable (fault : SystemFault) (path : Option String)
  /-- The file with variables is no text. -/
  | undecodable (fault : DecodeFault)
  /-- A variable whose name or value contains the character with number zero. -/
  | nullInVariable
  /-- A variable whose name contains an equals sign. -/
  | illegalName
  /-- The log knows nothing by the name of a level. -/
  | noSuchLevel (name : String)
  /-- The name of a level stands for a text. -/
  | levelIsText (value : String)
  /-- The name of a level stands for something else, which is shown so. -/
  | levelIsOther (shown : String)
  deriving DecidableEq, Repr

/-- The words for true. -/
def trueWords : List String := ["1", "true", "yes", "on"]

/-- The words for false. -/
def falseWords : List String := ["0", "false", "no", "off"]

/-- The levels of the log, in ascending order. -/
def logLevels : List String := ["CRITICAL", "DEBUG", "ERROR", "INFO", "WARNING"]

/-- The diagnosis of missing settings. -/
def SettingsFault.diagnosis : SettingsFault → Diagnosis
  | .unknownEncoding value =>
    ⟨.value, Variable.sourceEncoding.name ++ ": unknown encoding " ++ quoted value⟩
  | .notInteger value =>
    ⟨.value, Variable.maxWorkers.name ++ " must be an integer, got " ++ quoted value⟩
  | .tooFew workers =>
    ⟨.value, Variable.maxWorkers.name ++ " must be at least 1, got " ++ toString workers⟩
  | .notFlag value =>
    ⟨.value, Variable.preserveOrder.name ++ " must be true or false, got " ++ quoted value⟩
  | .unknownLevel value =>
    ⟨.value, Variable.logLevel.name ++ " must be one of " ++ quotedList (logLevels.map .ofString) ++ ", got " ++
      quoted value⟩
  | .unreadable fault path => fault.diagnosis path
  | .undecodable fault => fault.diagnosis
  | .nullInVariable => ⟨.value, "embedded null byte"⟩
  | .illegalName => ⟨.value, "illegal environment variable name"⟩
  | .noSuchLevel name => ⟨.attribute, "module 'logging' has no attribute '" ++ name ++ "'"⟩
  | .levelIsText value => ⟨.value, "Unknown level: " ++ quoted value⟩
  | .levelIsOther shown => ⟨.type, "Level not an integer or a valid string: " ++ shown⟩

namespace Settings

/-- The encoding that a value names. -/
def encodingOf (codecs : Codecs) (value : List Char) : Except SettingsFault String :=
  let name := String.ofList value
  if (codecs.lookup? name).isSome then .ok name else .error (.unknownEncoding name)

/-- The number of workers that a value writes. -/
def workersOf (value : List Char) : Except SettingsFault Int :=
  match decimal? value with
  | none => .error (.notInteger (String.ofList value))
  | some workers => if workers < 1 then .error (.tooFew workers) else .ok workers

/-- The flag that a value writes, in either case. -/
def flagOf (value : List Char) : Except SettingsFault Bool :=
  let word := String.ofList (lower value)
  if trueWords.contains word then .ok true
  else if falseWords.contains word then .ok false
  else .error (.notFlag word)

/-- The level that a value names, in either case. -/
def levelOf (value : List Char) : Except SettingsFault String :=
  let level := String.ofList (upper value)
  if logLevels.contains level then .ok level else .error (.unknownLevel level)

/-- The settings of an environment. -/
def ofEnvironment (codecs : Codecs) (environment : Environment) : Except SettingsFault Settings := do
  let sourceEncoding ← encodingOf codecs (Variable.sourceEncoding.value environment)
  let maxWorkers ← workersOf (Variable.maxWorkers.value environment)
  let preserveOrder ← flagOf (Variable.preserveOrder.value environment)
  let logLevel ← levelOf (Variable.logLevel.value environment)
  return { sourceEncoding, maxWorkers, preserveOrder, logLevel }

end Settings

end SourceDoc
