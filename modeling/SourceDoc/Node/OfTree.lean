import SourceDoc.Node.Basic
import SourceDoc.Span.Initializers
import SourceDoc.Tree.Declaration

/-!
# From syntax trees to source nodes

Names, types and comments come from the syntax tree; the texts of declarations, initial values and
annotation values are cut from the source.
-/

namespace SourceDoc.Tree

open SourceDoc.TokenText

/-- The range between the parentheses of an annotation, as the indices of its first and last token;
the range is empty when the second comes before the first. -/
def valueRange (src : TokenText) (position : Option Position) : Except SpanFault (Int × Int) := do
  let start ← src.indexOf "Annotation" position
  let opener ← src.find start "("
  let closer ← src.closing opener
  return (opener + 1, closer - 1)

/-- The texts of named values.  Each ends before the comma in front of the next name, and the last at
`last`. -/
def pairTexts (src : TokenText) (last : Int) :
    List (ElementPair × Int) → Except SpanFault (List (String × WideString))
  | [] => .ok []
  | (pair, start) :: rest => do
    let stop := match rest with
      | [] => last
      | (_, next) :: _ => next - 2
    let value ← src.cut (start + 2) stop
    return (pair.name, value) :: (← pairTexts src last rest)

/-- The node of an annotation. -/
def AnnotationUse.node (src : TokenText) (a : AnnotationUse) : Except SpanFault AnnotationNode :=
  match a.element with
  | .absent => .ok { name := a.name, value := none, pairs := [] }
  | .single _ => do
    let (first, last) ← valueRange src a.position
    return { name := a.name, value := some (← src.cut first last), pairs := [] }
  | .pairs pairs => do
    let (_, last) ← valueRange src a.position
    let starts ← pairs.mapM fun pair => src.indexOf "ElementValuePair" pair.position
    return { name := a.name, value := none, pairs := ← pairTexts src last (pairs.zip starts) }

/-- The nodes of annotations. -/
def annotationNodes (src : TokenText) (annotations : List AnnotationUse) :
    Except SpanFault (List AnnotationNode) :=
  annotations.mapM (AnnotationUse.node src)

/-- The node of a parameter. -/
def Parameter.node (src : TokenText) (p : Parameter) : Except SpanFault SourceNode := do
  return {
    kind := .parameter
    name := p.name
    typeText := some p.type.render
    modifiers := if p.isFinal then ["final"] else []
    annotations := ← annotationNodes src p.annotations
    varargs := p.varargs }

/-- The node of a variable of a field whose type is given. -/
def Declarator.node (typeText : String) (d : Declarator) (value : Option WideString) :
    SourceNode where
  kind := .variable
  name := d.name
  typeText := some (typeText ++ renderDimensions d.dimensions)
  initializer := if d.initializer.isSome then value else none

/-- The node of a field. -/
def fieldNode (src : TokenText) (header : Header) (type : TypeRef)
    (declarators : List Declarator) : Except SpanFault SourceNode := do
  let typeText := type.render
  let values ← src.initializers header.position
    (declarators.map fun d => (d.name, d.initializer.isSome))
  let anchor ← src.indexOf "FieldDeclaration" header.position
  let start ← src.declarationStart anchor (header.annotations.map (·.position))
  return {
    kind := .field
    typeText := some typeText
    modifiers := NameSet.ofList header.modifiers
    annotations := ← annotationNodes src header.annotations
    comment := header.comment
    children := List.zipWith (Declarator.node typeText) declarators values
    text := ← src.cut start (← src.statementEnd anchor) }

/-- The node of a method or constructor. -/
def callableNode (src : TokenText) (kind : NodeKind) (label : String) (header : Header)
    (result : Option String) (callable : Callable) : Except SpanFault SourceNode := do
  let anchor ← src.indexOf label header.position
  let start ← src.declarationStart anchor (header.annotations.map (·.position))
  let stop ← src.declarationEnd anchor
  return {
    kind
    name := callable.name
    typeText := result
    modifiers := NameSet.ofList header.modifiers
    annotations := ← annotationNodes src header.annotations
    comment := header.comment
    children := ← callable.parameters.mapM (Parameter.node src)
    typeParameters := callable.typeParameters
    throws := callable.throws
    text := ← src.cut start stop }

/-- The name of the node of a type declaration, as shown in messages. -/
def nodeLabel : DeclarationKind → String
  | .classType => "ClassDeclaration"
  | .interfaceType => "InterfaceDeclaration"
  | .enumType => "EnumDeclaration"
  | .recordType => "RecordDeclaration"
  | .annotationType => "AnnotationDeclaration"

/-- The type of a result as written; nothing given back is `void`. -/
def resultText : Option TypeRef → String
  | none => "void"
  | some type => type.render

mutual

/-- The node of a declaration. -/
def Declaration.node (src : TokenText) : Declaration → Except SpanFault SourceNode
  | .mk header body => body.node src header

/-- The node of a declaration with the given header. -/
def Body.node (src : TokenText) (header : Header) : Body → Except SpanFault SourceNode
  | .field type declarators => fieldNode src header type declarators
  | .method result callable =>
    callableNode src .method "MethodDeclaration" header (some (resultText result)) callable
  | .constructor callable =>
    callableNode src .constructor "ConstructorDeclaration" header none callable
  | .type kind name typeParameters parents interfaces members _ => do
    let anchor ← src.indexOf (nodeLabel kind) header.position
    let start ← src.declarationStart anchor (header.annotations.map (·.position))
    let annotations ← annotationNodes src header.annotations
    let children ← Declaration.nodes src members
    let stop ← src.declarationEnd anchor
    return {
      kind := .type kind
      name
      modifiers := NameSet.ofList header.modifiers
      annotations
      comment := header.comment
      children
      parents := parents.map TypeRef.render
      interfaces := interfaces.map TypeRef.render
      typeParameters
      text := ← src.cut start stop }

/-- The nodes of declarations. -/
def Declaration.nodes (src : TokenText) : List Declaration → Except SpanFault (List SourceNode)
  | [] => .ok []
  | declaration :: rest => do
    let node ← declaration.node src
    return node :: (← Declaration.nodes src rest)

end

end SourceDoc.Tree
