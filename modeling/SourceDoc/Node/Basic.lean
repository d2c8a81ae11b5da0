import SourceDoc.Text.WideString
import SourceDoc.Tree.Kind

/-!
# Source nodes

The view of a source that models are extracted from: declarations with their names, types, comments
and texts, whatever language they are written in.
-/

namespace SourceDoc

/-- The kinds of source nodes. -/
inductive NodeKind where
  /-- A type declaration. -/
  | type (kind : DeclarationKind)
  /-- A function outside types. -/
  | function
  /-- A statement outside types. -/
  | statement
  /-- A field declaration, with its variables as children. -/
  | field
  /-- A variable of a field declaration. -/
  | variable
  /-- A method, with its parameters as children. -/
  | method
  /-- A constructor, with its parameters as children. -/
  | constructor
  /-- A parameter. -/
  | parameter
  /-- Any other kind, by its label. -/
  | other (label : String)
  deriving DecidableEq, Repr

namespace NodeKind

/-- The label of a kind. -/
def label : NodeKind → String
  | .type kind => kind.label
  | .function => "function"
  | .statement => "statement"
  | .field => "field"
  | .variable => "variable"
  | .method => "method"
  | .constructor => "constructor"
  | .parameter => "parameter"
  | .other label => label

/-- The kinds that are no types and have a label of their own. -/
def plain : List NodeKind :=
  [.function, .statement, .field, .variable, .method, .constructor, .parameter]

/-- The kind with a label. -/
def ofLabel (label : String) : NodeKind :=
  match DeclarationKind.ofLabel? label with
  | some kind => .type kind
  | none => (plain.find? (·.label == label)).getD (.other label)

end NodeKind

/-- A set of names, in ascending order and without repetition. -/
abbrev NameSet (α : Type) := List α

namespace NameSet

variable {α : Type} [DecidableEq α] [LT α] [DecidableLT α]

/-- The set with a further name. -/
def insert (name : α) : NameSet α → NameSet α
  | [] => [name]
  | first :: rest =>
    if name < first then name :: first :: rest
    else if name = first then first :: rest
    else first :: NameSet.insert name rest

/-- The set of the names in a list. -/
def ofList (names : List α) : NameSet α :=
  names.foldr NameSet.insert []

end NameSet

/-- An annotation as written on a declaration. -/
structure AnnotationNode where
  /-- The name, with its qualification. -/
  name : String
  /-- The text of a value without a name. -/
  value : Option WideString
  /-- The names and texts of named values. -/
  pairs : List (String × WideString)
  deriving DecidableEq, Repr

/-- A node of a source.  What makes no sense for a kind of node is left empty. -/
structure SourceNode where
  /-- The kind of the node. -/
  kind : NodeKind
  /-- The name. -/
  name : String := ""
  /-- The type of a variable or parameter, or the result of a method. -/
  typeText : Option String := none
  /-- The modifiers. -/
  modifiers : NameSet String := []
  /-- The annotations, in order. -/
  annotations : List AnnotationNode := []
  /-- The documentation comment as written. -/
  comment : Option WideString := none
  /-- The nodes within. -/
  children : List SourceNode := []
  /-- The initial value of a variable, as written. -/
  initializer : Option WideString := none
  /-- Whether a parameter takes any number of arguments. -/
  varargs : Bool := false
  /-- The types that a declaration extends. -/
  parents : List String := []
  /-- The interfaces that a declaration implements. -/
  interfaces : List String := []
  /-- The names of the type parameters. -/
  typeParameters : List String := []
  /-- The types that a method may throw. -/
  throws : List String := []
  /-- The declaration as written. -/
  text : WideString := ""

/-- The children that satisfy a test on their kind. -/
def SourceNode.childrenOf (node : SourceNode) (kind : NodeKind) : List SourceNode :=
  node.children.filter (·.kind == kind)

/-- A source unit: a file or a text. -/
structure SourceUnit where
  /-- The path of the file. -/
  path : String
  /-- The package, empty if there is none. -/
  package : String := ""
  /-- The declarations at the top. -/
  declarations : List SourceNode := []
  /-- The name of the declaration that the unit is about, if known. -/
  primaryName : Option String := none
  /-- The language of the source. -/
  language : String := "java"
  /-- The whole source. -/
  text : WideString := ""

/-- What loading a source gives. -/
inductive Loaded where
  /-- A unit. -/
  | unit (unit : SourceUnit)
  /-- The path and the reason why there is no unit. -/
  | failure (path : String) (message : WideString)

/-- The path of what was loaded. -/
def Loaded.path : Loaded → String
  | .unit u => u.path
  | .failure path _ => path

end SourceDoc
