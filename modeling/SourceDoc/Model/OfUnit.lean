import SourceDoc.Model.Methods
import SourceDoc.Model.Selection
import SourceDoc.Model.SimpleName

/-!
# Models from source units
-/

namespace SourceDoc

/-- Why a unit has no model. -/
inductive BuildFault where
  /-- The unit has nothing to document. -/
  | skipped (skip : Skip)
  /-- A record is not in order. -/
  | invalid (fault : ModelFault)
  deriving DecidableEq, Repr

/-- The interfaces and the superclass of a declaration of a kind.  What an interface extends are
interfaces, so it has no superclass. -/
def inheritance (kind : DeclarationKind) (declaration : SourceNode) :
    List String × Option String :=
  let interfaces := declaration.interfaces.map simpleTypeName
  let parents := declaration.parents.map simpleTypeName
  if kind = .interfaceType then (interfaces ++ parents, none) else (interfaces, parents.head?)

/-- The record of a unit from the parts of its declaration. -/
def assemble (unit : SourceUnit) (declaration : SourceNode) (kind : DeclarationKind)
    (fields : List FieldModel) (methods : List MethodModel) : UnitDraft :=
  let (interfaces, superclass) := inheritance kind declaration
  { name := declaration.name
    package := unit.package
    fullyQualifiedName :=
      if unit.package.isEmpty then declaration.name else unit.package ++ "." ++ declaration.name
    kind := kind.name
    description := declaration.doc.map (·.description)
    interfaces
    superclass
    typeParameters := declaration.typeParameters
    isPublic := declaration.modifiers.contains "public"
    isAbstract := declaration.modifiers.contains "abstract"
    fields
    methods
    annotations := annotationMap declaration.annotations
    sourceCode := declaration.text
    sourcePath := unit.path }

/-- The model of a unit. -/
def UnitModel.ofUnit (unit : SourceUnit) : Except BuildFault UnitModel := do
  let (declaration, _, kind) ← unit.select.mapError BuildFault.skipped
  let methods ← (extractMethods declaration).mapError BuildFault.invalid
  (assemble unit declaration kind (extractFields declaration) methods).validate.mapError
    BuildFault.invalid

end SourceDoc
