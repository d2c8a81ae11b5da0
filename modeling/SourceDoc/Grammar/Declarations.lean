import SourceDoc.Grammar.Statements

/-!
# The grammar of declarations

Types, fields, methods and constructors are kept; initializer blocks, enum constants and the
elements of annotation types are recognised and not kept.
-/

namespace SourceDoc.Grammar

open SourceDoc.Tree SourceDoc.Grammar.Parser

/-! ### Methods, constructors and fields -/

/-- The types that may be thrown. -/
def throwsClause : Parser (List String) := do
  if ← takesText "throws" then separated "," qualifiedName else return []

/-- The end of a method: what it may throw, and a block or a semicolon; the range of the former. -/
def methodTail (parse : Descend) : Parser (List String × Option Extent) := do
  let throws ← throwsClause
  if ← seesText openBrace then
    let (_, body) ← measured (parse .block)
    return (throws, some body)
  else
    symbol ";"
    return (throws, none)

/-- A method without result, from its name on. -/
def voidMethod (parse : Descend) (typeParameters : List String) : Parser Body := do
  let name ← identifier
  let parameters ← parameters parse
  let (throws, body) ← methodTail parse
  return .method none { name, typeParameters, parameters, throws, body }

/-- A method with a result, from its parameters on.  Dimensions behind the parameters belong to the
result. -/
def methodRest (parse : Descend) (result : TypeRef) (name : String)
    (typeParameters : List String) : Parser Body := do
  let parameters ← parameters parse
  let behind ← dimensions
  let (throws, body) ← methodTail parse
  return .method (some (result.addDimensions behind))
    { name, typeParameters, parameters, throws, body }

/-- A constructor, from its name on. -/
def constructorRest (parse : Descend) (typeParameters : List String) : Parser Body := do
  let name ← identifier
  let parameters ← parameters parse
  let throws ← throwsClause
  let (_, body) ← measured (parse .block)
  return .constructor { name, typeParameters, parameters, throws, body := some body }

/-- The variables of a field of which the first name has been read. -/
def fieldRest (parse : Descend) (type : TypeRef) (name : String) : Parser Body := do
  let (count, initializer) ← declaratorRest parse
  let first : Declarator := { name, dimensions := count, initializer }
  let all ← chain (fun _ => do
    if ← takesText "," then return some (← declarator parse) else return none) first
  symbol ";"
  return .field type all

/-- Dimensions and the initial value of a constant. -/
def constantRest (parse : Descend) (name : String) : Parser Declarator := do
  let count ← dimensions
  symbol "="
  let (_, value) ← measured (parse .initializer)
  return { name, dimensions := count, initializer := some value }

/-- A constant. -/
def constant (parse : Descend) : Parser Declarator := do
  let name ← identifier
  constantRest parse name

/-- The constants of which the first name has been read. -/
def constantsRest (parse : Descend) (type : TypeRef) (name : String) : Parser Body := do
  let first ← constantRest parse name
  let all ← chain (fun _ => do
    if ← takesText "," then return some (← constant parse) else return none) first
  return .field type all

/-! ### Types -/

/-- A class. -/
def classDeclaration (parse : Descend) : Parser Body := do
  symbol "class"
  let name ← identifier
  let typeParameters ← typeParameters? parse
  let parents ← if ← takesText "extends" then List.singleton <$> type parse else pure []
  let interfaces ← if ← takesText "implements" then typeList parse else pure []
  let (members, extent) ← measured (parse (.members .classType))
  return .type .classType name typeParameters parents interfaces members extent

/-- An enum. -/
def enumDeclaration (parse : Descend) : Parser Body := do
  symbol "enum"
  let name ← identifier
  let interfaces ← if ← takesText "implements" then typeList parse else pure []
  let (members, extent) ← measured (parse (.members .enumType))
  return .type .enumType name [] [] interfaces members extent

/-- An interface. -/
def interfaceDeclaration (parse : Descend) : Parser Body := do
  symbol "interface"
  let name ← identifier
  let typeParameters ← typeParameters? parse
  let parents ← if ← takesText "extends" then typeList parse else pure []
  let (members, extent) ← measured (parse (.members .interfaceType))
  return .type .interfaceType name typeParameters parents [] members extent

/-- An annotation type. -/
def annotationDeclaration (parse : Descend) : Parser Body := do
  symbol "@"
  symbol "interface"
  let name ← identifier
  let (members, extent) ← measured (parse (.members .annotationType))
  return .type .annotationType name [] [] [] members extent

/-- A type declaration without its modifiers, if one comes next. -/
def typeBody? (parse : Descend) : Parser (Option Body) := do
  if ← seesText "class" then return some (← classDeclaration parse)
  else if ← seesText "enum" then return some (← enumDeclaration parse)
  else if ← seesText "interface" then return some (← interfaceDeclaration parse)
  else if ← seesAnnotationType then return some (← annotationDeclaration parse)
  else return none

/-- A declaration with its modifiers; nothing if its body is not to be kept. -/
def withFront (parse : Descend) (body : Parser (Option Body)) : Parser (Option Declaration) := do
  let front ← front parse
  let position ← here
  match ← body with
  | some body => return some (.mk (← front.header position) body)
  | none => return none

/-- A type declaration with its modifiers. -/
def typeDeclaration (parse : Descend) : Parser Declaration := do
  match ← withFront parse (typeBody? parse) with
  | some declaration => return declaration
  | none => refuse "Expected type declaration"

/-! ### Members -/

/-- A member of a class, behind its modifiers. -/
def memberBody (parse : Descend) : Parser Body := do
  if ← takesText "void" then voidMethod parse []
  else if ← seesText "<" then
    let typeParameters ← typeParameters? parse
    if ← sees [.ofClass .identifier, .text "("] then constructorRest parse typeParameters
    else if ← takesText "void" then voidMethod parse typeParameters
    else
      let result ← type parse
      let name ← identifier
      methodRest parse result name typeParameters
  else
    match ← typeBody? parse with
    | some body => return body
    | none =>
      if ← sees [.ofClass .identifier, .text "("] then constructorRest parse []
      else
        let type ← type parse
        let name ← identifier
        if ← seesText "(" then methodRest parse type name [] else fieldRest parse type name

/-- A member of a class, an initializer block or a lone semicolon. -/
def classMember (parse : Descend) : Parser (Option Declaration) := do
  if ← takesText ";" then return none
  else if ← sees [.text "static", .text openBrace] then
    symbol "static"
    parse .block
    return none
  else if ← seesText openBrace then
    parse .block
    return none
  else withFront parse do return some (← memberBody parse)

/-- A constant of an enum. -/
def enumConstant (parse : Descend) : Parser Unit := do
  if ← seesClass .atSign then
    let _ ← annotations parse
  let _ ← identifier
  arguments? parse
  classBody? parse

/-- The constants of an enum. -/
def enumConstants (parse : Descend) : Parser Unit := do
  if ← takesText "," then return
  if ← seesAny [";", closeBrace] then return
  enumConstant parse
  let _ ← collect do
    if !(← takesText ",") then return none
    if ← seesAny [";", closeBrace] then return none
    enumConstant parse
    return some ()

/-- A member of an interface, behind its modifiers.  Dimensions behind the parameters of a generic
method are dropped. -/
def interfaceMemberBody (parse : Descend) : Parser Body := do
  match ← typeBody? parse with
  | some body => return body
  | none =>
    if ← seesText "<" then
      let typeParameters ← typeParameters? parse
      let result ← if ← takesText "void" then pure none else some <$> type parse
      let name ← identifier
      let parameters ← parameters parse
      let _ ← dimensions
      let (throws, body) ← methodTail parse
      return .method result { name, typeParameters, parameters, throws, body }
    else if ← takesText "void" then voidMethod parse []
    else
      let type ← type parse
      let name ← identifier
      if ← seesText "(" then methodRest parse type name []
      else
        let constants ← constantsRest parse type name
        symbol ";"
        return constants

/-- A member of an interface or a lone semicolon. -/
def interfaceMember (parse : Descend) : Parser (Option Declaration) := do
  if ← takesText ";" then return none
  else withFront parse do return some (← interfaceMemberBody parse)

/-- A member of an annotation type, behind its modifiers; an element is not kept. -/
def annotationMemberBody (parse : Descend) : Parser (Option Body) := do
  match ← typeBody? parse with
  | some body => return some body
  | none =>
    let type ← type parse
    let name ← identifier
    if ← takesText "(" then
      symbol ")"
      let _ ← dimensions
      if ← takesText "default" then parse .elementValue
      symbol ";"
      return none
    else
      let constants ← constantsRest parse type name
      symbol ";"
      return some constants

/-- What stands in the body of a type declaration of a kind. -/
def memberItems (parse : Descend) : DeclarationKind → Parser (List (Option Declaration))
  | .classType | .recordType => upTo closeBrace (classMember parse)
  | .enumType => do
    enumConstants parse
    if ← takesText ";" then upTo closeBrace (classMember parse) else return []
  | .interfaceType => upTo closeBrace (interfaceMember parse)
  | .annotationType => upTo closeBrace (withFront parse (annotationMemberBody parse))

/-- The body of a type declaration of a kind: its members, in braces. -/
def members (parse : Descend) (kind : DeclarationKind) : Parser (List Declaration) := do
  symbol openBrace
  let items ← memberItems parse kind
  symbol closeBrace
  return items.filterMap id

end SourceDoc.Grammar
