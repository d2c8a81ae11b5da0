import SourceDoc.Node.Basic

/-!
# Signatures

The header of a method without annotations and body, in a standard form: modifiers in a fixed order,
type parameters, result, name, parameters and what may be thrown.
-/

namespace SourceDoc

/-- The order in which modifiers are written. -/
def modifierOrder : List String :=
  ["public", "protected", "private", "abstract", "default", "static", "final", "synchronized",
    "native", "strictfp"]

/-- The modifiers in the order in which they are written; others come last, in ascending order. -/
def orderedModifiers (modifiers : NameSet String) : List String :=
  modifierOrder.filter modifiers.contains ++ modifiers.filter (!modifierOrder.contains ·)

/-- A parameter as written in a signature. -/
def parameterText (p : SourceNode) : String :=
  (if p.modifiers.contains "final" then "final " else "") ++ p.typeText.getD "" ++
    (if p.varargs then "..." else "") ++ " " ++ p.name

/-- The type of a method's result; none is `void`. -/
def SourceNode.returnType (method : SourceNode) : String :=
  (method.typeText.filter (!·.isEmpty)).getD "void"

/-- The signature of a method. -/
def signature (method : SourceNode) : String :=
  let generics :=
    if method.typeParameters.isEmpty then []
    else ["<" ++ ", ".intercalate method.typeParameters ++ ">"]
  let parameters := ", ".intercalate ((method.childrenOf .parameter).map parameterText)
  let parts := orderedModifiers method.modifiers ++ generics ++
    [method.returnType, method.name ++ "(" ++ parameters ++ ")"]
  " ".intercalate parts ++
    (if method.throws.isEmpty then "" else " throws " ++ ", ".intercalate method.throws)

end SourceDoc
