/-!
# Types as written

The type of a variable, a parameter or a result, and the types that a declaration builds on: a basic
type, or a chain of names with type arguments, and a number of array dimensions.
`TypeRef.render` writes a type in its standard form.
-/

namespace SourceDoc

/-- How a wildcard is bounded. -/
inductive Bound where
  | upper
  | lower
  deriving DecidableEq, Repr

mutual

/-- A type with its array dimensions. -/
inductive TypeRef where
  /-- A basic type. -/
  | basic (name : String) (dimensions : Nat)
  /-- A chain of names, the outermost first. -/
  | named (segments : List Segment) (dimensions : Nat)

/-- One name of a chain, with its type arguments. -/
inductive Segment where
  | mk (name : String) (arguments : List TypeArgument)

/-- A type argument. -/
inductive TypeArgument where
  /-- A wildcard without bound. -/
  | wildcard
  /-- A wildcard with a bound. -/
  | bounded (bound : Bound) (type : TypeRef)
  /-- A type. -/
  | exact (type : TypeRef)

end

instance : Inhabited TypeRef := ⟨.named [] 0⟩

/-- The name of a segment. -/
def Segment.name : Segment → String
  | .mk name _ => name

/-- The word that introduces a bound. -/
def Bound.word : Bound → String
  | .upper => "extends"
  | .lower => "super"

/-- Array dimensions as written. -/
def renderDimensions (count : Nat) : String :=
  String.ofList (List.replicate count ['[', ']']).flatten

mutual

/-- The standard form of a type. -/
def TypeRef.render : TypeRef → String
  | .basic name dimensions => name ++ renderDimensions dimensions
  | .named segments dimensions =>
    ".".intercalate (Segment.renderAll segments) ++ renderDimensions dimensions

/-- The standard form of a segment. -/
def Segment.render : Segment → String
  | .mk name [] => name
  | .mk name (first :: rest) =>
    name ++ "<" ++ ", ".intercalate (first.render :: TypeArgument.renderAll rest) ++ ">"

/-- The standard form of a type argument. -/
def TypeArgument.render : TypeArgument → String
  | .wildcard => "?"
  | .bounded bound type => "? " ++ bound.word ++ " " ++ type.render
  | .exact type => type.render

/-- The standard forms of segments. -/
def Segment.renderAll : List Segment → List String
  | [] => []
  | segment :: rest => segment.render :: Segment.renderAll rest

/-- The standard forms of type arguments. -/
def TypeArgument.renderAll : List TypeArgument → List String
  | [] => []
  | argument :: rest => argument.render :: TypeArgument.renderAll rest

end

/-- The type with further array dimensions. -/
def TypeRef.addDimensions (extra : Nat) : TypeRef → TypeRef
  | .basic name dimensions => .basic name (dimensions + extra)
  | .named segments dimensions => .named segments (dimensions + extra)

end SourceDoc
