import SourceDoc.Diagnosis
import SourceDoc.NameMap
import SourceDoc.Node.Basic
import SourceDoc.Text.Quoted

/-!
# Documentation models

The model of a unit tells what its declaration offers: name and kind, what it builds on, its fields
and methods with their descriptions.  A missing description is nothing; an empty one means that the
source describes the thing as blank.

Records are checked when they are made: a method has a signature and distinct parameters and
describes only exceptions that it lists, and a unit has a name and one of the known kinds.
-/

namespace SourceDoc

open SourceDoc.Text

/-- Why a record is refused. -/
inductive ModelFault where
  /-- A method without signature. -/
  | noSignature (method : String)
  /-- Two parameters of one name. -/
  | duplicateParameter (parameter method : String)
  /-- Descriptions of exceptions that the method does not list. -/
  | strayDescriptions (names : List WideString) (method : String)
  /-- A unit without name. -/
  | emptyName
  /-- A kind that is not known. -/
  | unknownKind (kind : String)
  deriving DecidableEq, Repr

/-- The diagnosis of a refused record. -/
def ModelFault.diagnosis : ModelFault → Diagnosis
  | .noSignature method => ⟨.value, "method " ++ quoted method ++ " has no signature"⟩
  | .duplicateParameter parameter method =>
    ⟨.value, "duplicate parameter " ++ quoted parameter ++ " in method " ++ quoted method⟩
  | .strayDescriptions names method =>
    ⟨.value, "exception descriptions for undeclared names " ++ quotedList names ++
      " in method " ++ quoted method⟩
  | .emptyName => ⟨.value, "fully_qualified_name must not be empty"⟩
  | .unknownKind kind => ⟨.value, "unsupported declaration kind " ++ quoted kind⟩

/-- The model of a parameter. -/
structure ParameterModel where
  /-- The name. -/
  name : String
  /-- The type as written. -/
  typeName : String
  /-- The description. -/
  description : Option WideString := none
  /-- Whether an argument must be given. -/
  isRequired : Bool := true
  deriving DecidableEq, Repr

/-- The model of a field. -/
structure FieldModel where
  /-- The name. -/
  name : String
  /-- The type as written. -/
  typeName : String
  /-- The description. -/
  description : Option WideString := none
  /-- Whether the field is public. -/
  isPublic : Bool := false
  /-- Whether the field belongs to the type. -/
  isStatic : Bool := false
  /-- Whether the field keeps its value. -/
  isFinal : Bool := false
  /-- The initial value as written. -/
  initialValue : Option WideString := none
  /-- The annotations and their values. -/
  annotations : NameMap String WideString := []
  deriving DecidableEq, Repr

/-- The model of a method. -/
structure MethodModel where
  /-- The name. -/
  name : String
  /-- The type of the result. -/
  returnType : String
  /-- The header of the declaration. -/
  signature : String
  /-- The description. -/
  description : Option WideString := none
  /-- The description of the result. -/
  returnDescription : Option WideString := none
  /-- The parameters, in order. -/
  parameters : List ParameterModel := []
  /-- What may be thrown, in order. -/
  exceptions : List WideString := []
  /-- The descriptions of what may be thrown. -/
  exceptionDescriptions : NameMap WideString WideString := []
  /-- The annotations and their values. -/
  annotations : NameMap String WideString := []
  /-- Whether the method is public. -/
  isPublic : Bool := false
  /-- Whether the method belongs to the type. -/
  isStatic : Bool := false
  /-- Whether the method has no body. -/
  isAbstract : Bool := false
  /-- The names of the type parameters. -/
  typeParameters : List String := []
  /-- The declaration as written. -/
  sourceCode : WideString := ""
  deriving DecidableEq, Repr

/-- The first name that occurred before. -/
def firstRepeated? (seen : List String) : List String → Option String
  | [] => none
  | name :: rest => if seen.contains name then some name else firstRepeated? (name :: seen) rest

/-- The names that are described and not listed. -/
def MethodModel.strayNames (m : MethodModel) : NameSet WideString :=
  NameSet.ofList ((NameMap.names m.exceptionDescriptions).filter (!m.exceptions.contains ·))

/-- The method, if it is in order. -/
def MethodModel.validate (m : MethodModel) : Except ModelFault MethodModel :=
  if m.signature.isEmpty then .error (.noSignature m.name)
  else match firstRepeated? [] (m.parameters.map (·.name)) with
    | some parameter => .error (.duplicateParameter parameter m.name)
    | none =>
      if m.strayNames.isEmpty then .ok m else .error (.strayDescriptions m.strayNames m.name)

/-- The record of a unit, with kinds of the given type. -/
structure UnitRecord (κ : Type) where
  /-- The name. -/
  name : String
  /-- The package, empty if there is none. -/
  package : String
  /-- The name with the package. -/
  fullyQualifiedName : String
  /-- The kind of declaration. -/
  kind : κ
  /-- The description. -/
  description : Option WideString := none
  /-- The names of the interfaces. -/
  interfaces : List String := []
  /-- The name of the class that is extended. -/
  superclass : Option String := none
  /-- The names of the type parameters. -/
  typeParameters : List String := []
  /-- Whether the declaration is public. -/
  isPublic : Bool := false
  /-- Whether the declaration is abstract. -/
  isAbstract : Bool := false
  /-- The fields, in order. -/
  fields : List FieldModel := []
  /-- The methods, in order. -/
  methods : List MethodModel := []
  /-- The annotations and their values. -/
  annotations : NameMap String WideString := []
  /-- The declaration as written. -/
  sourceCode : WideString := ""
  /-- The path of the unit. -/
  sourcePath : String := ""
  deriving DecidableEq, Repr

/-- The record of a unit whose kind is a word. -/
abbrev UnitDraft := UnitRecord String

/-- The model of a unit. -/
abbrev UnitModel := UnitRecord DeclarationKind

/-- The model that a record describes, if it is in order. -/
def UnitRecord.validate (draft : UnitDraft) : Except ModelFault UnitModel :=
  if draft.fullyQualifiedName.isEmpty then .error .emptyName
  else match DeclarationKind.ofName? draft.kind with
    | none => .error (.unknownKind draft.kind)
    | some kind => .ok { draft with kind }

end SourceDoc
