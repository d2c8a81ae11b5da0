import SourceDoc.Settings.Basic
import SourceDoc.Settings.Expansion
import SourceDoc.Workspace

/-!
# Loading settings

Before settings are read, the nearest file with variables, from the current directory upward, adds
its variables to the environment.  Variables that exist already stay as they are, and variables that
were added stay, whether or not the settings are then in order.  A variable of the environment can
switch the file off.
-/

namespace SourceDoc

open SourceDoc.Text

/-- The name of files with variables. -/
def variablesFile : String := ".env"

/-- A place and the places above it, the nearest first. -/
def placesUp (place : Place) : List Place :=
  (List.range (place.length + 1)).map fun up => place.take (place.length - up)

/-- The path of the nearest file with variables. -/
def Workspace.variablesPath? (ws : Workspace) : Option String :=
  ((placesUp ws.directory).map fun place => Place.path (place ++ [variablesFile])).find?
    (ws.files.isFile ws.directory)

/-- The bytes of the file with variables that has a path. -/
def Workspace.variablesAt (ws : Workspace) (path : String) : Except SettingsFault (List UInt8) := do
  let file ← (ws.files.opened ws.directory path).mapError (.unreadable · (some path))
  file.mapError (.unreadable · none)

/-- Adds variables to an environment until one is not in order. -/
def addVariables (environment : Environment) :
    List VariableFile.Entry → Environment × Except SettingsFault Unit
  | [] => (environment, .ok ())
  | (name, value) :: rest =>
    match NameMap.get? environment name, value with
    | none, some value =>
      if hasNull name || hasNull value then
        (environment, .error .nullInVariable)
      else if name.toList.contains '=' then (environment, .error .illegalName)
      else addVariables (NameMap.set name value environment) rest
    | _, _ => addVariables environment rest

/-- The entries that the bytes of a file with variables write. -/
def entriesOf (bytes : List UInt8) : Except SettingsFault (List VariableFile.Entry) :=
  match Encoding.utf8.decode bytes with
  | .error fault => .error (.undecodable fault)
  | .ok text => .ok (VariableFile.entries (universalNewlines id text))

/-- The variable that switches files with variables off. -/
def offSwitch : String := "PYTHON_DOTENV_DISABLED"

/-- The words that switch them off. -/
def offWords : List String := ["1", "true", "t", "yes", "y"]

/-- The small letter of a letter.  Besides the ASCII letters only the long s has one that occurs in
`offWords`. -/
def smallLetter (c : Char) : Char :=
  if c = Char.ofNat 0x17f then 's' else c.toLower

/-- Whether an environment switches files with variables off. -/
def isSwitchedOff (environment : Environment) : Bool :=
  (NameMap.get? environment offSwitch).any fun value =>
    offWords.contains (String.ofList (value.toList.map smallLetter))

/-- The entries of the nearest file with variables.  There are none without such a file, or if files are
switched off. -/
def Workspace.entries (ws : Workspace) : Except SettingsFault (List VariableFile.Entry) :=
  if isSwitchedOff ws.environment then .ok []
  else match ws.variablesPath? with
    | none => .ok []
    | some path => (ws.variablesAt path).bind entriesOf

/-- The environment with the variables of the nearest file. -/
def Workspace.withVariables (ws : Workspace) : Workspace × Except SettingsFault Unit :=
  match ws.entries with
  | .error fault => (ws, .error fault)
  | .ok entries =>
    let (environment, outcome) :=
      addVariables ws.environment (VariableFile.resolve ws.environment entries)
    ({ ws with environment }, outcome)

/-- Loads the settings; the workspace keeps the variables that were added. -/
def loadSettings (ws : Workspace) : Workspace × Except SettingsFault Settings :=
  let (ws, outcome) := ws.withVariables
  (ws, outcome.bind fun _ => Settings.ofEnvironment ws.codecs ws.environment)

end SourceDoc
