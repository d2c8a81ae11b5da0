import SourceDoc.Model.Fields
import SourceDoc.Model.Signature

/-!
# Methods of a declaration

Only the methods directly within a declaration count; overloads stay separate, in source order.
What a method may throw is what its comment says, or else what its header says.
-/

namespace SourceDoc

/-- The models of the parameters of a method. -/
def extractParameters (method : SourceNode) (comment : Option DocComment) : List ParameterModel :=
  (method.childrenOf .parameter).map fun p =>
    { name := p.name
      typeName := p.typeText.getD ""
      description := comment.bind (·.paramDescription p.name)
      isRequired := !p.varargs }

/-- What a method may throw, with the descriptions. -/
def thrownBy (method : SourceNode) (comment : Option DocComment) :
    List WideString × NameMap WideString WideString :=
  let documented := (comment.map (·.thrown)).getD []
  if documented.isEmpty then (method.throws.map .ofString, [])
  else (documented.map (·.1), NameMap.ofEntries documented)

/-- The model of a method, not yet checked. -/
def methodModel (method : SourceNode) : MethodModel :=
  let comment := method.doc
  let (exceptions, exceptionDescriptions) := thrownBy method comment
  { name := method.name
    returnType := method.returnType
    signature := signature method
    description := comment.map (·.description)
    returnDescription := comment.bind (·.returnDescription)
    parameters := extractParameters method comment
    exceptions
    exceptionDescriptions
    annotations := annotationMap method.annotations
    isPublic := method.modifiers.contains "public"
    isStatic := method.modifiers.contains "static"
    isAbstract := method.modifiers.contains "abstract"
    typeParameters := method.typeParameters
    sourceCode := method.text }

/-- The model of a method. -/
def extractMethod (method : SourceNode) : Except ModelFault MethodModel :=
  (methodModel method).validate

/-- The models of the methods of a declaration, in order. -/
def extractMethods (declaration : SourceNode) : Except ModelFault (List MethodModel) :=
  (declaration.childrenOf .method).mapM extractMethod

end SourceDoc
