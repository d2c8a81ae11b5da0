import SourceDoc.Grammar.Rule

/-!
# The grammar of types

Types with their arguments and dimensions, lists of types, and type parameters.
-/

namespace SourceDoc.Grammar

open SourceDoc.Tree SourceDoc.Grammar.Parser

/-- Array dimensions, each an empty pair of brackets. -/
def dimensions : Parser Nat := do
  let pairs ← collect do
    if ← takes [.text "[", .text "]"] then return some () else return none
  return pairs.length

/-- The name of a basic type. -/
def basicType : Parser String := expect (.ofClass .basicType)

/-- One or more items between commas, up to a closing token, which is read. -/
def listed {α : Type} (closer : String) (item : Parser α) : Parser (List α) := do
  let first ← item
  chain (fun _ => do
    if ← takesText closer then return none
    symbol ","
    return some (← item)) first

/-- A type. -/
def type (parse : Descend) : Parser TypeRef := do
  if ← seesClass .basicType then
    let name ← basicType
    return .basic name (← dimensions)
  else if ← seesClass .identifier then
    let segments ← parse .reference
    return .named segments (← dimensions)
  else refuse "Expected type"

/-- A type that stands for objects: a chain of names, or an array of a basic type. -/
def objectType (parse : Descend) : Parser TypeRef := do
  if ← seesClass .basicType then
    let name ← basicType
    symbol "["
    symbol "]"
    return .basic name (1 + (← dimensions))
  else
    let segments ← parse .reference
    return .named segments (← dimensions)

/-- A type argument. -/
def typeArgument (parse : Descend) : Parser TypeArgument := do
  if ← takesText "?" then
    if ← takesText "extends" then return .bounded .upper (← objectType parse)
    else if ← takesText "super" then return .bounded .lower (← objectType parse)
    else return .wildcard
  else return .exact (← objectType parse)

/-- Type arguments in angle brackets. -/
def typeArguments (parse : Descend) : Parser (List TypeArgument) := do
  symbol "<"
  listed ">" (typeArgument parse)

/-- One name of a chain, with its type arguments. -/
def segment (parse : Descend) : Parser Segment := do
  let name ← identifier
  if ← seesText "<" then return .mk name (← typeArguments parse)
  else return .mk name []

/-- A chain of names with type arguments. -/
def reference (parse : Descend) : Parser (List Segment) := separated "." (segment parse)

/-- A list of types between commas. -/
def typeList (parse : Descend) : Parser (List TypeRef) := separated "," (objectType parse)

/-- Types in angle brackets, without wildcards. -/
def plainArguments (parse : Descend) : Parser Unit := do
  symbol "<"
  let _ ← typeList parse
  symbol ">"

/-- Types in angle brackets, without wildcards, if an angle bracket comes next. -/
def plainArguments? (parse : Descend) : Parser Bool := do
  if ← seesText "<" then
    plainArguments parse
    return true
  else return false

/-- A type parameter, of which the name is kept. -/
def typeParameter (parse : Descend) : Parser String := do
  let name ← identifier
  if ← takesText "extends" then
    let _ ← separated "&" (parse .reference)
  return name

/-- Type parameters in angle brackets, if an angle bracket comes next. -/
def typeParameters? (parse : Descend) : Parser (List String) := do
  if ← seesText "<" then
    symbol "<"
    listed ">" (typeParameter parse)
  else return []

end SourceDoc.Grammar
