import SourceDoc.Token.Basic
import SourceDoc.Tree.Declaration

/-!
# Parsers over a token list

A parser moves a cursor over a fixed array of tokens and gives a value or stops.  Stopping keeps the
cursor, because a problem is reported where the cursor stands, and because an attempt that fails
goes back to its mark.

An attempt (`attempt`) sets the mark to its own start and goes back to the mark when it stops.  When
an attempt within it succeeds, the mark of the enclosing attempt moves to the mark of the inner one,
so a later failure goes back no further than that.
-/

namespace SourceDoc.Grammar

open SourceDoc.Tree (Extent)

/-- Where a parser stands. -/
structure Cursor where
  /-- The index of the next token. -/
  next : Nat
  /-- The index that the enclosing attempt goes back to. -/
  mark : Nat
  deriving DecidableEq, Repr

/-- Why a parser stopped. -/
inductive Stop where
  /-- The tokens do not have the expected form; the place is that of the next token. -/
  | unexpected (problem : String) (place : Option Position)
  /-- A token is needed and none is left. -/
  | endOfTokens
  /-- No token is left where the text of the next one is tested behind an operand. -/
  | endBehindOperand
  /-- The nesting is deeper than was allowed for. -/
  | tooDeep
  deriving DecidableEq, Repr

/-- What a parser answers. -/
inductive Reply (α : Type) where
  /-- A value, and where the parser stands now. -/
  | done (value : α) (cursor : Cursor)
  /-- A reason for stopping, and where the parser stands now. -/
  | stopped (reason : Stop) (cursor : Cursor)

/-- A parser for values of a type. -/
def Parser (α : Type) : Type :=
  Array Token → Cursor → Reply α

namespace Parser

variable {α β : Type}

/-- The parser that reads nothing and gives a value. -/
def give (value : α) : Parser α := fun _ cursor => .done value cursor

/-- The parser that goes on with what the first parser gives. -/
def andThen (first : Parser α) (next : α → Parser β) : Parser β := fun tokens cursor =>
  match first tokens cursor with
  | .done value cursor => next value tokens cursor
  | .stopped reason cursor => .stopped reason cursor

instance : Monad Parser where
  pure := give
  bind := andThen

/-- The parser that stops for a reason. -/
def stop (reason : Stop) : Parser α := fun _ cursor => .stopped reason cursor

/-- The token `ahead` places behind the next one. -/
def look (ahead : Nat) : Parser (Option Token) := fun tokens cursor =>
  .done tokens[cursor.next + ahead]? cursor

/-- The place of the next token. -/
def here : Parser (Option Position) := fun tokens cursor =>
  .done (tokens[cursor.next]?.map (·.position)) cursor

/-- The index of the next token. -/
def index : Parser Nat := fun _ cursor => .done cursor.next cursor

/-- Reads the next token, whatever it is. -/
def advance : Parser Token := fun tokens cursor =>
  match tokens[cursor.next]? with
  | some token => .done token { cursor with next := cursor.next + 1 }
  | none => .stopped .endOfTokens cursor

/-- Stops with a problem at the next token. -/
def refuse (problem : String) : Parser α := fun tokens cursor =>
  .stopped (.unexpected problem (tokens[cursor.next]?.map (·.position))) cursor

/-- The range of tokens that a parser reads. -/
def measured (parser : Parser α) : Parser (α × Extent) := do
  let first ← index
  let value ← parser
  let stop ← index
  return (value, ⟨first, stop⟩)

/-! ### Expected tokens -/

/-- The text of an opening brace. -/
def openBrace : String := "\x7b"

/-- The text of a closing brace. -/
def closeBrace : String := "\x7d"

/-- What a token may be asked to be. -/
inductive Pattern where
  /-- A token with this text, of any class. -/
  | text (value : String)
  /-- A token of this class. -/
  | ofClass (cls : TokenClass)

/-- Whether a token is as asked. -/
def Pattern.fits : Pattern → Option Token → Bool
  | .text value, some token => token.value == value
  | .ofClass cls, some token => token.cls == cls
  | _, none => false

/-- The pattern as shown in messages. -/
def Pattern.shown : Pattern → String
  | .text value => "'" ++ value ++ "'"
  | .ofClass cls => cls.name

/-- Whether the next tokens are as asked, one by one, from `ahead` on. -/
def seesFrom (ahead : Nat) : List Pattern → Parser Bool
  | [] => give true
  | pattern :: rest => do
    if pattern.fits (← look ahead) then seesFrom (ahead + 1) rest else return false

/-- Whether the next tokens are as asked. -/
def sees (patterns : List Pattern) : Parser Bool := seesFrom 0 patterns

/-- Whether the next token has this text. -/
def seesText (value : String) : Parser Bool := sees [.text value]

/-- Whether the next token is of this class. -/
def seesClass (cls : TokenClass) : Parser Bool := sees [.ofClass cls]

/-- Reads one token and stops if it is not as asked.  The problem is reported at the token behind
it, which is the next one by then. -/
def expect (pattern : Pattern) : Parser String := do
  let token ← advance
  if pattern.fits (some token) then return token.value
  else refuse ("Expected " ++ pattern.shown)

/-- Reads a token with this text. -/
def symbol (value : String) : Parser Unit := do
  let _ ← expect (.text value)

/-- Reads an identifier. -/
def identifier : Parser String := expect (.ofClass .identifier)

/-- Reads the next tokens if they are as asked, and tells whether they were. -/
def takes (patterns : List Pattern) : Parser Bool := do
  if ← sees patterns then
    (fun _ cursor => .done true { cursor with next := cursor.next + patterns.length })
  else return false

/-- Reads the next token if it has this text, and tells whether it had. -/
def takesText (value : String) : Parser Bool := takes [.text value]

/-! ### Repetition -/

/-- Repeats a step that finds the value after a given one, a bounded number of times. -/
def chainWithin (step : α → Parser (Option α)) : Nat → α → Parser (List α)
  | 0, _ => stop .tooDeep
  | rounds + 1, value => do
    match ← step value with
    | none => return [value]
    | some next => return value :: (← chainWithin step rounds next)

/-- The values that begin with the given one, each found by the step from the one before.  Every
step that finds a value reads a token, so there are no more rounds than tokens. -/
def chain (step : α → Parser (Option α)) (first : α) : Parser (List α) := fun tokens cursor =>
  chainWithin step (tokens.size + 1) first tokens cursor

/-- The values that a step finds until it finds none. -/
def collect (step : Parser (Option α)) : Parser (List α) := do
  match ← step with
  | none => return []
  | some first => chain (fun _ => step) first

/-- One or more values with a separator between them. -/
def separated (separator : String) (item : Parser α) : Parser (List α) := do
  let first ← item
  chain (fun _ => do if ← takesText separator then return some (← item) else return none) first

/-- The values up to a token with the given text, which is not read. -/
def upTo (closer : String) (item : Parser α) : Parser (List α) :=
  collect do if ← seesText closer then return none else return some (← item)

/-! ### Attempts -/

/-- Tries a parser: nothing, if the tokens do not have the form it expects. -/
def attempt (parser : Parser α) : Parser (Option α) := fun tokens cursor =>
  match parser tokens { cursor with mark := cursor.next } with
  | .done value after => .done (some value) after
  | .stopped (.unexpected _ _) after => .done none { next := after.mark, mark := cursor.mark }
  | .stopped reason after => .stopped reason { next := after.mark, mark := cursor.mark }

end Parser

end SourceDoc.Grammar
