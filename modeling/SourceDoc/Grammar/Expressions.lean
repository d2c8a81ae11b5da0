import SourceDoc.Grammar.Annotations

/-!
# The grammar of expressions

Expressions are recognised and not kept.  A parenthesis may open a lambda, a cast or an expression
in parentheses; the first two are attempted in this order.
-/

namespace SourceDoc.Grammar

open SourceDoc.Tree SourceDoc.Grammar.Parser

/-- The operators that assign. -/
def assignmentOperators : List String :=
  ["=", "+=", "-=", "*=", "/=", "&=", "|=", "^=", "%=", "<<=", ">>=", ">>>="]

/-- The operators between operands. -/
def infixOperators : List String :=
  ["||", "&&", "|", "^", "&", "==", "!=", "<", ">", "<=", ">=", "<<", "+", "-", "*", "/", "%"]

/-- The operators in front of an operand. -/
def prefixOperators : List String := ["++", "--", "!", "~", "+", "-"]

/-- The operators behind an operand. -/
def postfixOperators : List String := ["++", "--"]

/-- Whether the text of the next token is among the given ones. -/
def seesAny (values : List String) : Parser Bool := do
  return (← look 0).any fun token => values.contains token.value

/-- Reads tokens as long as their texts are among the given ones. -/
def skipAny (values : List String) : Parser Unit := do
  let _ ← collect do
    if ← seesAny values then
      let _ ← advance
      return some ()
    else return none

/-- Arguments in parentheses. -/
def arguments (parse : Descend) : Parser Unit := do
  symbol "("
  if ← takesText ")" then return
  let _ ← separated "," (parse .expression)
  symbol ")"

/-- Arguments in parentheses, if a parenthesis comes next. -/
def arguments? (parse : Descend) : Parser Unit := do
  if ← seesText "(" then arguments parse

/-- The body of a class, if a brace comes next. -/
def classBody? (parse : Descend) : Parser Unit := do
  if ← seesText openBrace then
    let _ ← parse (.members .classType)

/-- An expression in parentheses. -/
def parenthesized (parse : Descend) : Parser Unit := do
  symbol "("
  parse .expression
  symbol ")"

/-- What may stand behind `super`. -/
def superSuffix (parse : Descend) : Parser Unit := do
  if ← takesText "." then
    let _ ← plainArguments? parse
    let _ ← identifier
    arguments? parse
  else arguments parse

/-- What stands behind explicit type arguments of a call. -/
def explicitSuffix (parse : Descend) : Parser Unit := do
  if ← takesText "super" then superSuffix parse
  else
    let _ ← identifier
    arguments parse

/-- Values in braces. -/
def arrayInitializer (parse : Descend) : Parser Unit := do
  symbol openBrace
  if ← takesText "," then
    symbol closeBrace
    return
  if ← takesText closeBrace then return
  let item : Parser Unit := do
    parse .initializer
    unless ← seesText closeBrace do symbol ","
  item
  let _ ← collect do
    if ← takesText closeBrace then return none
    item
    return some ()

/-- An initial value. -/
def initializer (parse : Descend) : Parser Unit := do
  if ← seesText openBrace then arrayInitializer parse else parse .expression

/-- What stands behind the element type of a new array. -/
def arrayCreatorRest (parse : Descend) : Parser Unit := do
  if ← sees [.text "[", .text "]"] then
    let _ ← dimensions
    arrayInitializer parse
  else
    let _ ← collect do
      if !(← seesText "[") then return none
      if ← sees [.text "[", .text "]"] then return none
      symbol "["
      parse .expression
      symbol "]"
      return some ()
    let _ ← dimensions

/-- One name of a created type, with type arguments or an empty pair of angle brackets. -/
def createdSegment (parse : Descend) : Parser Unit := do
  let _ ← identifier
  if ← seesText "<" then
    unless ← takes [.text "<", .text ">"] do
      let _ ← typeArguments parse

/-- What stands behind `new`. -/
def creator (parse : Descend) : Parser Unit := do
  if ← seesClass .basicType then
    let _ ← basicType
    arrayCreatorRest parse
  else
    let generic ← plainArguments? parse
    let _ ← separated "." (createdSegment parse)
    if ← seesText "[" then
      if generic then
        refuse "Array creator not allowed with generic constructor type arguments"
      else arrayCreatorRest parse
    else
      arguments parse
      classBody? parse

/-- What stands behind `new` in a selection from an object. -/
def innerCreator (parse : Descend) : Parser Unit := do
  let _ ← identifier
  if ← seesText "<" then
    unless ← takes [.text "<", .text ">"] do plainArguments parse
  arguments parse
  classBody? parse

/-- What may stand behind a name that begins an operand. -/
def identifierSuffix (parse : Descend) : Parser Unit := do
  if ← takes [.text "[", .text "]"] then
    let _ ← dimensions
    symbol "."
    symbol "class"
  else if ← seesText "(" then arguments parse
  else if ← takes [.text ".", .text "class"] then return
  else if ← takes [.text ".", .text "this"] then return
  else if ← sees [.text ".", .text "<"] then
    symbol "."
    plainArguments parse
    explicitSuffix parse
  else if ← takes [.text ".", .text "new"] then
    let _ ← plainArguments? parse
    innerCreator parse
  else if ← sees [.text ".", .text "super", .text "("] then
    symbol "."
    symbol "super"
    arguments parse

/-- A selection from an operand: an element or a member. -/
def selector (parse : Descend) : Parser Unit := do
  if ← takesText "[" then
    parse .expression
    symbol "]"
  else if ← takesText "." then
    if ← seesClass .identifier then
      let _ ← identifier
      arguments? parse
    else if ← sees [.text "super", .text "::"] then symbol "super"
    else if ← seesText "<" then
      plainArguments parse
      explicitSuffix parse
    else if ← takesText "this" then return
    else if ← takesText "super" then superSuffix parse
    else if ← takesText "new" then
      let _ ← plainArguments? parse
      innerCreator parse
    else refuse "Expected selector"
  else refuse "Expected selector"

/-- Whether the next token selects from an operand; there must be a next token. -/
def seesSelector : Parser Bool := do
  match ← look 0 with
  | some token => return token.value == "[" || token.value == "."
  | none => stop .endBehindOperand

/-- An operand without signs and selectors. -/
def primary (parse : Descend) : Parser Unit := do
  let token ← look 0
  if token.any (·.cls.isLiteral) then
    let _ ← advance
  else if ← seesText "(" then parenthesized parse
  else if ← takesText "this" then arguments? parse
  else if ← sees [.text "super", .text "::"] then symbol "super"
  else if ← takesText "super" then superSuffix parse
  else if ← takesText "new" then creator parse
  else if ← seesText "<" then
    plainArguments parse
    if ← takesText "this" then arguments parse else explicitSuffix parse
  else if ← seesClass .identifier then
    let _ ← identifier
    let _ ← collect do
      if ← sees [.text ".", .ofClass .identifier] then
        symbol "."
        let _ ← identifier
        return some ()
      else return none
    identifierSuffix parse
  else if ← seesClass .basicType then
    let _ ← basicType
    let _ ← dimensions
    symbol "."
    symbol "class"
  else if ← takesText "void" then
    symbol "."
    symbol "class"
  else refuse "Expected expression"

/-- The body of a lambda, with the arrow before it. -/
def lambdaBody (parse : Descend) : Parser Unit := do
  symbol "->"
  if ← seesText openBrace then parse .block else parse .expression

/-- A lambda with its parameters in parentheses. -/
def lambda (parse : Descend) : Parser Unit := do
  if ← sees [.text "(", .ofClass .identifier, .text ","] then
    symbol "("
    let _ ← upTo ")" do
      let _ ← identifier
      let _ ← takesText ","
    symbol ")"
  else
    let _ ← parameters parse
  lambdaBody parse

/-- A cast. -/
def cast (parse : Descend) : Parser Unit := do
  symbol "("
  let _ ← type parse
  symbol ")"
  parse .operand

/-- An operand, its selectors and the operators behind it. -/
def selection (parse : Descend) : Parser Unit := do
  primary parse
  let _ ← collect do
    if ← seesSelector then
      selector parse
      return some ()
    else return none
  skipAny postfixOperators

/-- An operand, with its signs and selectors. -/
def operand (parse : Descend) : Parser Unit := do
  skipAny prefixOperators
  if ← seesText "(" then
    if (← attempt (lambda parse)).isSome then return
    if (← attempt (cast parse)).isSome then return
  selection parse

/-- Reads an operator between operands; up to three `>` in a row are one operator. -/
def infixOperator : Parser Unit := do
  let operator ← advance
  if operator.value == ">" then
    if ← takesText ">" then
      let _ ← takesText ">"

/-- Operands with operators between them. -/
def operation (parse : Descend) : Parser Unit := do
  parse .operand
  let _ ← collect do
    if ← takesText "instanceof" then
      let _ ← type parse
      return some ()
    else if ← seesAny infixOperators then
      infixOperator
      parse .operand
      return some ()
    else return none

/-- An expression that is no assignment. -/
def conditional (parse : Descend) : Parser Unit := do
  operation parse
  if ← takesText "?" then
    parse .expression
    symbol ":"
    parse .conditional
  else if ← seesText "->" then lambdaBody parse
  else if ← takesText "::" then
    let _ ← plainArguments? parse
    if ← takesText "new" then return
    parse .expression

/-- An expression. -/
def expression (parse : Descend) : Parser Unit := do
  parse .conditional
  if ← seesAny assignmentOperators then
    let _ ← advance
    parse .expression

end SourceDoc.Grammar
