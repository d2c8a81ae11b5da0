import SourceDoc.Grammar.Expressions

/-!
# The grammar of statements

Statements are recognised and not kept.  What begins a line of a block may be a declaration or a
statement; a look ahead past modifiers and annotations decides where it can, and where it cannot a
declaration of variables is attempted first.
-/

namespace SourceDoc.Grammar

open SourceDoc.Tree SourceDoc.Grammar.Parser

/-- Dimensions and the initial value behind the name of a variable; the range of the latter. -/
def declaratorRest (parse : Descend) : Parser (Nat × Option Extent) := do
  let count ← dimensions
  if ← takesText "=" then
    let (_, value) ← measured (parse .initializer)
    return (count, some value)
  else return (count, none)

/-- One variable of a declaration. -/
def declarator (parse : Descend) : Parser Declarator := do
  let name ← identifier
  let (count, initializer) ← declaratorRest parse
  return { name, dimensions := count, initializer }

/-- A declaration of variables in a block. -/
def localVariables (parse : Descend) : Parser Unit := do
  let _ ← variableFront parse
  let _ ← type parse
  let _ ← separated "," (declarator parse)
  symbol ";"

/-- An expression, unless a token with this text comes next. -/
def expressionUnless (parse : Descend) (closer : String) : Parser Unit := do
  unless ← seesText closer do parse .expression

/-- Expressions between commas, unless a token with this text comes next. -/
def expressionsUnless (parse : Descend) (closer : String) : Parser Unit := do
  unless ← seesText closer do
    let _ ← separated "," (parse .expression)

/-- The condition and the steps of a loop with three parts. -/
def loopTail (parse : Descend) : Parser Unit := do
  symbol ";"
  expressionUnless parse ";"
  symbol ";"
  expressionsUnless parse ")"

/-- The control of a loop that declares its variables. -/
def loopVariables (parse : Descend) : Parser Unit := do
  let _ ← variableFront parse
  let _ ← type parse
  let _ ← identifier
  let _ ← dimensions
  if ← takesText ":" then parse .expression
  else
    unless ← seesText ";" do
      if ← takesText "=" then parse .initializer
      let _ ← collect do
        if ← takesText "," then return some (← declarator parse) else return none
    loopTail parse

/-- The control of a loop. -/
def loopControl (parse : Descend) : Parser Unit := do
  if (← attempt (loopVariables parse)).isSome then return
  expressionsUnless parse ";"
  loopTail parse

/-- A label of a switch. -/
def switchLabel (parse : Descend) : Parser Unit := do
  let word ← advance
  if word.value == "case" then
    if ← sees [.ofClass .identifier, .text ":"] then
      let _ ← identifier
    else parse .expression
  symbol ":"

/-- Labels of a switch and the lines behind them. -/
def switchGroup (parse : Descend) : Parser Unit := do
  switchLabel parse
  let _ ← collect do
    if ← seesAny ["case", "default"] then
      switchLabel parse
      return some ()
    else return none
  let _ ← collect do
    if ← seesAny ["case", "default", closeBrace] then return none
    parse .blockStatement
    return some ()

/-- The groups of a switch. -/
def switchGroups (parse : Descend) : Parser Unit := do
  let _ ← collect do
    if ← seesAny ["case", "default"] then
      switchGroup parse
      return some ()
    else return none

/-- A handler of a `try`. -/
def handler (parse : Descend) : Parser Unit := do
  symbol "catch"
  symbol "("
  let _ ← variableFront parse
  let _ ← separated "|" qualifiedName
  let _ ← identifier
  symbol ")"
  parse .block

/-- The handlers and the last block of a `try`; whether there is any. -/
def handlers (parse : Descend) : Parser Bool := do
  let caught ← collect do
    if ← seesText "catch" then
      handler parse
      return some ()
    else return none
  if ← takesText "finally" then
    parse .block
    return true
  return !caught.isEmpty

/-- A resource of a `try`. -/
def resource (parse : Descend) : Parser Unit := do
  let _ ← variableFront parse
  let _ ← parse .reference
  let _ ← dimensions
  let _ ← identifier
  let _ ← dimensions
  symbol "="
  parse .expression

/-- The resources of a `try`, in parentheses. -/
def resources (parse : Descend) : Parser Unit := do
  symbol "("
  let item : Parser Unit := do
    resource parse
    unless ← seesText ")" do symbol ";"
  item
  let _ ← collect do
    if ← takesText ")" then return none
    item
    return some ()

/-- What stands behind `try`. -/
def tryRest (parse : Descend) : Parser Unit := do
  if ← seesText openBrace then
    parse .block
    unless ← handlers parse do refuse "Expected catch/finally block"
  else
    resources parse
    parse .block
    let _ ← handlers parse

/-- The end of a jump, with an optional label. -/
def jumpRest : Parser Unit := do
  if ← seesClass .identifier then
    let _ ← identifier
  symbol ";"

/-- A block in braces. -/
def block (parse : Descend) : Parser Unit := do
  symbol openBrace
  let _ ← upTo closeBrace (parse .blockStatement)
  symbol closeBrace

/-- A statement. -/
def statement (parse : Descend) : Parser Unit := do
  if ← seesText openBrace then parse .block
  else if ← takesText ";" then return
  else if ← takes [.ofClass .identifier, .text ":"] then parse .statement
  else if ← takesText "if" then
    parenthesized parse
    parse .statement
    if ← takesText "else" then parse .statement
  else if ← takesText "assert" then
    parse .expression
    if ← takesText ":" then parse .expression
    symbol ";"
  else if ← takesText "switch" then
    parenthesized parse
    symbol openBrace
    switchGroups parse
    symbol closeBrace
  else if ← takesText "while" then
    parenthesized parse
    parse .statement
  else if ← takesText "do" then
    parse .statement
    symbol "while"
    parenthesized parse
    symbol ";"
  else if ← takesText "for" then
    symbol "("
    loopControl parse
    symbol ")"
    parse .statement
  else if ← takesText "break" then jumpRest
  else if ← takesText "continue" then jumpRest
  else if ← takesText "return" then
    expressionUnless parse ";"
    symbol ";"
  else if ← takesText "throw" then
    parse .expression
    symbol ";"
  else if ← takesText "synchronized" then
    parenthesized parse
    parse .block
  else if ← takesText "try" then tryRest parse
  else
    parse .expression
    symbol ";"

/-! ### Declaration or statement -/

/-- What a look ahead past modifiers and annotations finds. -/
inductive Lead where
  /-- A modifier that only a type declaration can have. -/
  | typeModifier
  /-- This token, behind annotations or not. -/
  | token (token : Option Token) (annotated : Bool)

/-- How far ahead the qualification of a name reaches that goes on at the given place. -/
def behindName : Nat → Nat → Parser Nat
  | 0, _ => stop .tooDeep
  | rounds + 1, ahead => do
    if (← look ahead).any (·.value == ".") then behindName rounds (ahead + 2) else return ahead

/-- How far ahead a parenthesis reaches in which `depth` are open at the given place. -/
def behindParentheses : Nat → Nat → Nat → Parser Nat
  | 0, _, _ => stop .tooDeep
  | rounds + 1, depth, ahead => do
    if depth = 0 then return ahead
    let token ← look ahead
    if token.any (·.value == "(") then behindParentheses rounds (depth + 1) (ahead + 1)
    else if token.any (·.value == ")") then behindParentheses rounds (depth - 1) (ahead + 1)
    else behindParentheses rounds depth (ahead + 1)

/-- Looks ahead past modifiers and annotations.  Behind an annotation without parentheses one more
token is passed over. -/
def leadFrom (bound : Nat) : Nat → Nat → Bool → Parser Lead
  | 0, _, _ => stop .tooDeep
  | rounds + 1, ahead, annotated => do
    let token ← look ahead
    if token.any (·.cls == .modifier) then
      if token.any (·.value == "final") then leadFrom bound rounds (ahead + 1) annotated
      else return .typeModifier
    else if ← seesAnnotationAt ahead then
      let behind ← behindName bound (ahead + 2)
      if (← look behind).any (·.value == "(") then
        leadFrom bound rounds (← behindParentheses bound 1 (behind + 1)) true
      else leadFrom bound rounds (behind + 1) true
    else return .token token annotated

/-- Looks ahead past the modifiers and annotations that come next.  No look goes past the tokens, so
their number bounds every part of it. -/
def lead : Parser Lead := fun tokens cursor =>
  leadFrom (tokens.size + 2) (tokens.size + 2) 0 false tokens cursor

/-- A type declaration in a block. -/
def localType (parse : Descend) : Parser Unit := do
  let _ ← parse .typeDeclaration

/-- A declaration or a statement in a block. -/
def blockStatement (parse : Descend) : Parser Unit := do
  if ← sees [.ofClass .identifier, .text ":"] then parse .statement
  else if ← seesText "synchronized" then parse .statement
  else match ← lead with
    | .typeModifier => localType parse
    | .token token annotated =>
      if token.any fun t => ["class", "enum", "interface", "@"].contains t.value then
        localType parse
      else if annotated || token.any (·.cls == .basicType) then localVariables parse
      else if !token.any (·.cls == .identifier) then parse .statement
      else
        if (← attempt (localVariables parse)).isSome then return
        parse .statement

end SourceDoc.Grammar
