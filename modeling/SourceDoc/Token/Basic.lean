import SourceDoc.Text.WideString

/-!
# Tokens

A token of a Java source: its class, its text, the place where it starts and the documentation
comment that stands before it.
-/

namespace SourceDoc

/-- A place in a text, both parts counted from one. -/
structure Position where
  /-- The line. -/
  line : Nat
  /-- The column. -/
  column : Nat
  deriving DecidableEq, Repr

/-- A place as shown in messages. -/
def Position.text (p : Position) : String :=
  "Position(line=" ++ toString p.line ++ ", column=" ++ toString p.column ++ ")"

/-- The classes of tokens. -/
inductive TokenClass where
  | identifier
  | keyword
  | modifier
  | basicType
  | boolean
  | null
  | string
  | decimalInteger
  | octalInteger
  | binaryInteger
  | hexInteger
  | decimalFloat
  | hexFloat
  | separator
  | operator
  | atSign
  deriving DecidableEq, Repr

namespace TokenClass

/-- The name of a class, as shown in messages. -/
def name : TokenClass → String
  | identifier => "Identifier"
  | keyword => "Keyword"
  | modifier => "Modifier"
  | basicType => "BasicType"
  | boolean => "Boolean"
  | null => "Null"
  | string => "String"
  | decimalInteger => "DecimalInteger"
  | octalInteger => "OctalInteger"
  | binaryInteger => "BinaryInteger"
  | hexInteger => "HexInteger"
  | decimalFloat => "DecimalFloatingPoint"
  | hexFloat => "HexFloatingPoint"
  | separator => "Separator"
  | operator => "Operator"
  | atSign => "Annotation"

/-- Whether tokens of the class stand for a value. -/
def isLiteral : TokenClass → Bool
  | boolean | null | string | decimalInteger | octalInteger | binaryInteger | hexInteger
  | decimalFloat | hexFloat => true
  | _ => false

end TokenClass

/-- A token. -/
structure Token where
  /-- The class of the token. -/
  cls : TokenClass
  /-- The text of the token. -/
  text : WideString
  /-- The place of the token's first character. -/
  position : Position
  /-- The documentation comment before the token. -/
  comment : Option WideString
  deriving DecidableEq, Repr

/-- The text of a token as a string.  Surrogates occur in string literals only. -/
def Token.value (token : Token) : String := token.text.toString

end SourceDoc
