import SourceDoc.Grammar.Types

/-!
# The grammar of annotations, modifiers and parameters
-/

namespace SourceDoc.Grammar

open SourceDoc.Tree SourceDoc.Grammar.Parser

/-- A name with its qualification. -/
def qualifiedName : Parser String := do
  return ".".intercalate (← separated "." identifier)

/-- Whether an annotation stands `ahead` places behind the next token, and not the declaration of an
annotation type. -/
def seesAnnotationAt (ahead : Nat) : Parser Bool := do
  let sign ← look ahead
  let word ← look (ahead + 1)
  return sign.any (·.cls == .atSign) && !word.any (·.value == "interface")

/-- Whether the declaration of an annotation type comes next. -/
def seesAnnotationType : Parser Bool := sees [.ofClass .atSign, .text "interface"]

/-- Values of an annotation in braces. -/
def elementArray (parse : Descend) : Parser Unit := do
  symbol openBrace
  if ← takesText closeBrace then return
  parse .elementValue
  let _ ← collect do
    if ← seesText closeBrace then return none
    if ← sees [.text ",", .text closeBrace] then return none
    symbol ","
    parse .elementValue
    return some ()
  let _ ← takesText ","
  symbol closeBrace

/-- A value of an annotation. -/
def elementValue (parse : Descend) : Parser Unit := do
  if ← seesAnnotationAt 0 then
    let _ ← parse .annotationUse
  else if ← seesText openBrace then elementArray parse
  else parse .conditional

/-- A named value of an annotation. -/
def elementPair (parse : Descend) : Parser ElementPair := do
  let position ← here
  let name ← identifier
  symbol "="
  let (_, value) ← measured (parse .elementValue)
  return { name, position, value }

/-- What an annotation is given. -/
def element (parse : Descend) : Parser Element := do
  if ← sees [.ofClass .identifier, .text "="] then
    return .pairs (← separated "," (elementPair parse))
  else
    let (_, value) ← measured (parse .elementValue)
    return .single value

/-- An annotation. -/
def annotationUse (parse : Descend) : Parser AnnotationUse := do
  let position ← here
  symbol "@"
  let name ← qualifiedName
  if ← takesText "(" then
    if ← takesText ")" then return { name, position, element := .absent }
    let element ← element parse
    symbol ")"
    return { name, position, element }
  else return { name, position, element := .absent }

/-- One or more annotations. -/
def annotations (parse : Descend) : Parser (List AnnotationUse) := do
  let first ← parse .annotationUse
  chain (fun _ => do
    if ← seesAnnotationAt 0 then return some (← parse .annotationUse) else return none) first

/-- A modifier or an annotation in front of a declaration. -/
inductive Mark where
  /-- A modifier. -/
  | modifier (word : String)
  /-- An annotation. -/
  | use (use : AnnotationUse)

/-- The modifiers among marks. -/
def Mark.words (marks : List Mark) : List String :=
  marks.filterMap fun
    | .modifier word => some word
    | .use _ => none

/-- The annotations among marks. -/
def Mark.annotations (marks : List Mark) : List AnnotationUse :=
  marks.filterMap fun
    | .modifier _ => none
    | .use a => some a

/-- What stands in front of a declaration. -/
structure Front where
  /-- The index of the first token. -/
  first : Nat
  /-- The modifiers and annotations. -/
  marks : List Mark
  /-- The documentation comment before the first token. -/
  comment : Option WideString

/-- Modifiers and annotations in front of a declaration. -/
def front (parse : Descend) : Parser Front := do
  let first ← index
  let token ← look 0
  let marks ← collect do
    if ← seesClass .modifier then return some (.modifier (← expect (.ofClass .modifier)))
    else if ← seesAnnotationAt 0 then return some (.use (← parse .annotationUse))
    else return none
  return { first, marks, comment := token.bind (·.comment) }

/-- The header of a declaration that has been read up to here. -/
def Front.header (front : Front) (position : Option Position) : Parser Header := do
  let stop ← index
  return {
    modifiers := Mark.words front.marks
    annotations := Mark.annotations front.marks
    comment := front.comment
    position
    extent := ⟨front.first, stop⟩ }

/-- What may stand in front of a variable: `final` and annotations. -/
def variableFront (parse : Descend) : Parser (List Mark) :=
  collect do
    if ← takesText "final" then return some (.modifier "final")
    else if ← seesAnnotationAt 0 then return some (.use (← parse .annotationUse))
    else return none

/-- A formal parameter. -/
def parameter (parse : Descend) : Parser Parameter := do
  let marks ← variableFront parse
  let type ← type parse
  let varargs ← takesText "..."
  let name ← identifier
  let behind ← dimensions
  return {
    isFinal := !(Mark.words marks).isEmpty
    annotations := Mark.annotations marks
    type := type.addDimensions behind
    varargs
    name }

/-- Formal parameters in parentheses.  A parameter that takes any number of arguments is the last. -/
def parameters (parse : Descend) : Parser (List Parameter) := do
  symbol "("
  if ← takesText ")" then return []
  let first ← parameter parse
  let all ← chain (fun last => do
    if last.varargs then return none
    if ← takesText "," then return some (← parameter parse) else return none) first
  symbol ")"
  return all

end SourceDoc.Grammar
