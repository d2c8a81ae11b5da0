/-!
# Kinds of type declarations
-/

namespace SourceDoc

/-- The kinds of type declarations. -/
inductive DeclarationKind where
  | classType
  | interfaceType
  | enumType
  | recordType
  | annotationType
  deriving DecidableEq, Repr

namespace DeclarationKind

/-- All kinds, in the order in which they are counted. -/
def all : List DeclarationKind := [.classType, .interfaceType, .enumType, .recordType, .annotationType]

/-- The kind as a word of a source tree. -/
def label : DeclarationKind → String
  | .classType => "class"
  | .interfaceType => "interface"
  | .enumType => "enum"
  | .recordType => "record"
  | .annotationType => "annotation"

/-- The kind as a word of a model. -/
def name : DeclarationKind → String
  | .classType => "CLASS"
  | .interfaceType => "INTERFACE"
  | .enumType => "ENUM"
  | .recordType => "RECORD"
  | .annotationType => "ANNOTATION"

/-- The kind that a word of a model names. -/
def ofName? (word : String) : Option DeclarationKind :=
  all.find? (·.name == word)

/-- The kind that a word of a source tree names. -/
def ofLabel? (word : String) : Option DeclarationKind :=
  all.find? (·.label == word)

end DeclarationKind

end SourceDoc
