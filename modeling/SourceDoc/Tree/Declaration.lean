import SourceDoc.Token.Basic
import SourceDoc.Tree.Kind
import SourceDoc.Tree.TypeRef

/-!
# The syntax tree of a unit

What the grammar reads from a compilation unit: its package, and its type declarations with their
members.  Blocks, expressions and enum constants are recognised and not kept.  Each declaration, body,
initializer and annotation value carries the range of tokens it was read from.
-/

namespace SourceDoc.Tree

/-- A range of tokens: those from `first` on, before `stop`. -/
structure Extent where
  /-- The index of the first token. -/
  first : Nat
  /-- The index behind the last token. -/
  stop : Nat
  deriving DecidableEq, Repr

/-- A named value of an annotation. -/
structure ElementPair where
  /-- The name of the element. -/
  name : String
  /-- The place of the name. -/
  position : Option Position
  /-- The tokens of the value. -/
  value : Extent
  deriving DecidableEq, Repr

/-- What an annotation is given. -/
inductive Element where
  /-- Nothing, with or without parentheses. -/
  | absent
  /-- One value without a name. -/
  | single (value : Extent)
  /-- Named values. -/
  | pairs (pairs : List ElementPair)
  deriving DecidableEq, Repr

/-- An annotation. -/
structure AnnotationUse where
  /-- The name, with its qualification. -/
  name : String
  /-- The place of the annotation's first token. -/
  position : Option Position
  /-- What the annotation is given. -/
  element : Element
  deriving DecidableEq, Repr

/-- What all declarations have in common. -/
structure Header where
  /-- The modifiers, in the order in which they are written. -/
  modifiers : List String
  /-- The annotations, in the order in which they are written. -/
  annotations : List AnnotationUse
  /-- The documentation comment. -/
  comment : Option WideString
  /-- The place of the first token behind modifiers and annotations. -/
  position : Option Position
  /-- The tokens of the declaration. -/
  extent : Extent
  deriving DecidableEq, Repr

/-- One variable of a field declaration. -/
structure Declarator where
  /-- The name of the variable. -/
  name : String
  /-- The number of array dimensions behind the name. -/
  dimensions : Nat
  /-- The tokens of the initial value. -/
  initializer : Option Extent
  deriving DecidableEq, Repr

/-- A formal parameter. -/
structure Parameter where
  /-- Whether the parameter is marked final. -/
  isFinal : Bool
  /-- The annotations, in the order in which they are written. -/
  annotations : List AnnotationUse
  /-- The type, with the dimensions behind the name. -/
  type : TypeRef
  /-- Whether the parameter takes any number of arguments. -/
  varargs : Bool
  /-- The name of the parameter. -/
  name : String

/-- What methods and constructors have in common. -/
structure Callable where
  /-- The name. -/
  name : String
  /-- The names of the type parameters. -/
  typeParameters : List String
  /-- The parameters. -/
  parameters : List Parameter
  /-- The types that may be thrown, as written. -/
  throws : List String
  /-- The tokens of the body, from brace to brace, if there is one. -/
  body : Option Extent

mutual

/-- A declaration that is kept. -/
inductive Declaration where
  | mk (header : Header) (body : Body)

/-- What a declaration declares. -/
inductive Body where
  /-- A type with its members, and the tokens of its body, from brace to brace. -/
  | type (kind : DeclarationKind) (name : String) (typeParameters : List String)
      (parents interfaces : List TypeRef) (members : List Declaration) (extent : Extent)
  /-- A field, with one or more variables. -/
  | field (type : TypeRef) (declarators : List Declarator)
  /-- A method; nothing for a result means that none is given back. -/
  | method (result : Option TypeRef) (callable : Callable)
  /-- A constructor. -/
  | constructor (callable : Callable)

end

/-- A compilation unit. -/
structure CompilationUnit where
  /-- The name of the package. -/
  package : Option String
  /-- The type declarations, in order. -/
  types : List Declaration

end SourceDoc.Tree
