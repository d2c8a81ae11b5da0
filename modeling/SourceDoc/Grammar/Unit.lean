import SourceDoc.Diagnosis
import SourceDoc.Grammar.Declarations

/-!
# The grammar of compilation units

`parseRule` gives every rule a parser, one level of nesting at a time, and `parseUnit` reads a whole
token list.  Each level of nesting passes through a few rules and then reads a token, so the number
of tokens bounds the depth.
-/

namespace SourceDoc.Grammar

open SourceDoc.Tree SourceDoc.Grammar.Parser

/-- The parser of a rule, given parsers for what is nested in it. -/
def step (parse : Descend) : Descend
  | .reference => reference parse
  | .annotationUse => annotationUse parse
  | .elementValue => elementValue parse
  | .expression => expression parse
  | .conditional => conditional parse
  | .operand => operand parse
  | .initializer => initializer parse
  | .block => block parse
  | .blockStatement => blockStatement parse
  | .statement => statement parse
  | .members kind => members parse kind
  | .typeDeclaration => typeDeclaration parse

/-- The parser of a rule for nesting up to a depth. -/
def parseRule : Nat → Descend
  | 0, _ => stop .tooDeep
  | depth + 1, rule => step (parseRule depth) rule

/-- Goes back to the mark. -/
def rewind : Parser Unit := fun _ cursor => .done () { cursor with next := cursor.mark }

/-- The package of a unit, with the annotations before it.  Without a package the annotations belong
to the first declaration, and reading goes back to the mark. -/
def package? (parse : Descend) : Parser (Option String) := do
  if ← seesAnnotationAt 0 then
    let _ ← annotations parse
  if ← takesText "package" then
    let name ← qualifiedName
    symbol ";"
    return some name
  else
    rewind
    return none

/-- An import. -/
def importDeclaration : Parser Unit := do
  symbol "import"
  let _ ← takesText "static"
  let _ ← identifier
  let _ ← collect do
    if ← takesText "." then
      if ← takesText "*" then
        symbol ";"
        return none
      else
        let _ ← identifier
        return some ()
    else
      symbol ";"
      return none

/-- Turns the end of the tokens into a problem at the next token. -/
def needsMore {α : Type} (parser : Parser α) : Parser α := fun tokens cursor =>
  match parser tokens cursor with
  | .stopped .endOfTokens after => refuse "Unexpected end of input" tokens after
  | reply => reply

/-- A type declaration or a lone semicolon. -/
def topLevel (parse : Descend) : Parser (Option Declaration) := do
  if ← takesText ";" then return none else return some (← parse .typeDeclaration)

/-- A compilation unit. -/
def compilationUnit (parse : Descend) : Parser CompilationUnit := do
  let package ← package? parse
  let _ ← collect do
    if ← seesText "import" then
      importDeclaration
      return some ()
    else return none
  let types ← collect do
    match ← look 0 with
    | none => return none
    | some _ => return some (← needsMore (topLevel parse))
  return { package, types := types.filterMap id }

/-- How deep the nesting of a list of tokens can be. -/
def depthBound (tokens : Array Token) : Nat := 16 * (tokens.size + 1)

/-- The compilation unit that a list of tokens writes, or why it writes none. -/
def parseUnit (tokens : Array Token) : Except Stop CompilationUnit :=
  match compilationUnit (parseRule (depthBound tokens)) tokens ⟨0, 0⟩ with
  | .done unit _ => .ok unit
  | .stopped reason _ => .error reason

/-- The message of a parser that stopped. -/
def Stop.message : Stop → WideString
  | .unexpected problem (some place) =>
    "Java syntax error: " ++ problem ++ " at line " ++ toString place.line ++ ", column " ++
      toString place.column
  | .unexpected problem none => "Java syntax error: " ++ problem ++ " at end of input"
  | .endOfTokens => "Failed to parse Java code: " ++ Diagnosis.text ⟨.exhausted, ""⟩
  | .endBehindOperand => "Failed to parse Java code: " ++ Diagnosis.missingText.text
  | .tooDeep => "Failed to parse Java code: " ++ Diagnosis.text ⟨.depth, "nesting too deep"⟩

end SourceDoc.Grammar
