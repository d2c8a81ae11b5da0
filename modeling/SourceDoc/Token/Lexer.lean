import SourceDoc.Diagnosis
import SourceDoc.Escape.Decode
import SourceDoc.Text.Letter
import SourceDoc.Text.Mark
import SourceDoc.Token.Numeral

/-!
# Cutting a text into tokens

The decoded text of a Java source is read from left to right.  Blanks and comments separate tokens;
a comment that begins with `/**` documents the token after it.  Lines are counted in blanks and
comments only: a line feed inside a string literal belongs to the literal and starts no line.

`Token.ofSource` decodes the escapes of a source and cuts the result into tokens.
-/

namespace SourceDoc.Token

open SourceDoc.Text

/-! ### Lexemes -/

/-- Why a text does not begin with a token. -/
inductive Fault where
  /-- A comment without an end. -/
  | openComment
  /-- A string or character literal without an end. -/
  | openString
  /-- A code point that may not follow a backslash in a literal. -/
  | badEscape (c : WideChar)
  /-- A code point that begins no token. -/
  | strayChar (c : WideChar)
  /-- A numeric literal that cannot be read. -/
  | numeral (fault : Numeral.Fault)
  deriving DecidableEq, Repr

/-- The words that name basic types. -/
def basicTypes : List String :=
  ["boolean", "byte", "char", "double", "float", "int", "long", "short"]

/-- The words that modify a declaration. -/
def modifiers : List String :=
  ["abstract", "default", "final", "native", "private", "protected", "public", "static",
    "strictfp", "synchronized", "transient", "volatile"]

/-- The other words that the language keeps for itself. -/
def keywords : List String :=
  ["assert", "break", "case", "catch", "class", "const", "continue", "do", "else", "enum",
    "extends", "finally", "for", "goto", "if", "implements", "import", "instanceof", "interface",
    "new", "package", "return", "super", "switch", "this", "throw", "throws", "try", "void",
    "while"]

/-- The class of a word. -/
def classOfWord (word : String) : TokenClass :=
  if modifiers.contains word then .modifier
  else if basicTypes.contains word then .basicType
  else if keywords.contains word then .keyword
  else if word = "true" || word = "false" then .boolean
  else if word = "null" then .null
  else .identifier

/-- The operators, longest first.  Closing angle brackets are never joined. -/
def operators : List String :=
  [">>>=", ">>=", "<<=", "...", "%=", "^=", "|=", "&=", "/=", "*=", "-=", "+=", "<<", "--", "++",
    "||", "&&", "!=", ">=", "<=", "==", "->", "::", "%", "^", "|", "&", "/", "*", "-", "+", ":",
    "?", "~", "!", "<", ">", "="]

/-- The length of the longest operator that a text begins with. -/
def operatorLength? (text : List WideChar) : Option Nat :=
  (operators.find? fun op => (WideString.ofString op).toList.isPrefixOf text).map String.length

/-- The characters that are tokens on their own and separate others. -/
def isSeparator (c : Char) : Bool :=
  ['(', ')', '{', '}', '[', ']', ';', ',', '.'].contains c

/-- Whether the character joins words: connector punctuation, as of Unicode 14. -/
def isConnector (c : Char) : Bool :=
  [0x5f, 0x203f, 0x2040, 0x2054, 0xfe33, 0xfe34, 0xfe4d, 0xfe4e, 0xfe4f, 0xff3f].contains c.toNat

/-- The currency signs beyond ASCII, as of Unicode 14. -/
def currencySigns : CodePointSet where
  changes := [
    0xa2, 0xa6, 0x58f, 0x590, 0x60b, 0x60c, 0x7fe, 0x800, 0x9f2, 0x9f4, 0x9fb, 0x9fc, 0xaf1,
    0xaf2, 0xbf9, 0xbfa, 0xe3f, 0xe40, 0x17db, 0x17dc, 0x20a0, 0x20c1, 0xa838, 0xa839, 0xfdfc,
    0xfdfd, 0xfe69, 0xfe6a, 0xff04, 0xff05, 0xffe0, 0xffe2, 0xffe5, 0xffe7, 0x11fdd, 0x11fe1,
    0x1e2ff, 0x1e300, 0x1ecb0, 0x1ecb1]

/-- Whether the character is a currency sign. -/
def isCurrency (c : Char) : Bool :=
  c = '$' || (0x80 ≤ c.toNat && currencySigns.contains c)

/-- Whether an identifier may begin with the character. -/
def isIdentifierStart (c : Char) : Bool :=
  isLetter c || isConnector c || isCurrency c || isLetterNumber c

/-- Whether an identifier may contain the character. -/
def isIdentifierPart (c : Char) : Bool :=
  isIdentifierStart c || (digitValue? c).isSome || isMark c

/-- Where the reading of a string literal stands. -/
inductive StringMode where
  /-- Between escapes. -/
  | plain
  /-- Behind a backslash. -/
  | escape
  /-- Behind the first digit of an octal escape that may have three. -/
  | longOctal
  /-- Behind a digit of an octal escape that may have one more. -/
  | shortOctal
  deriving DecidableEq, Repr

/-- The number of characters up to the closing delimiter, which is counted. -/
def stringTail (delimiter : WideChar) : StringMode → List WideChar → Except Fault Nat
  | _, [] => .error .openString
  | .plain, c :: rest =>
    if c = '\\' then (stringTail delimiter .escape rest).map (· + 1)
    else if c = delimiter then .ok 1
    else (stringTail delimiter .plain rest).map (· + 1)
  | .escape, c :: rest =>
    if c.satisfies ['b', 't', 'n', 'f', 'r', 'u', '"', '\'', '\\'].contains then
      (stringTail delimiter .plain rest).map (· + 1)
    else if c.satisfies fun c => '0' ≤ c && c ≤ '3' then
      (stringTail delimiter .longOctal rest).map (· + 1)
    else if c.satisfies Numeral.isOctal then (stringTail delimiter .shortOctal rest).map (· + 1)
    else .error (.badEscape c)
  | .longOctal, c :: rest =>
    if c.satisfies Numeral.isOctal then (stringTail delimiter .shortOctal rest).map (· + 1)
    else if c = '\\' then (stringTail delimiter .escape rest).map (· + 1)
    else if c = delimiter then .ok 1
    else (stringTail delimiter .longOctal rest).map (· + 1)
  | .shortOctal, c :: rest =>
    if c = '\\' then (stringTail delimiter .escape rest).map (· + 1)
    else if c = delimiter then .ok 1
    else (stringTail delimiter .plain rest).map (· + 1)

/-- The class and the length of the token that begins with `c` and goes on with `rest`. -/
def lexeme (c : WideChar) (rest : List WideChar) : Except Fault (TokenClass × Nat) :=
  let text := c :: rest
  let next := rest.head?
  if c = '.' && next = some (.char '.') && (operatorLength? text).isSome then
    .ok (.operator, (operatorLength? text).getD 0)
  else if c = '@' then .ok (.atSign, 1)
  else if c = '.' && next.any (·.satisfies isDigit) then (Numeral.decimal text).mapError .numeral
  else if c.satisfies isSeparator then .ok (.separator, 1)
  else if c = '\'' || c = '"' then
    (stringTail c .plain rest).map fun length => (.string, length + 1)
  else if c.satisfies Char.isDigit then (Numeral.literal text).mapError .numeral
  else if c.satisfies isIdentifierStart then
    let word := c :: rest.takeWhile (·.satisfies isIdentifierPart)
    .ok (classOfWord (WideString.ofList word).toString, word.length)
  else match operatorLength? text with
    | some length => .ok (.operator, length)
    | none => .error (.strayChar c)

/-! ### Comments -/

/-- The number of characters up to and including the first `*/`. -/
def blockTail? : List WideChar → Option Nat
  | .char '*' :: .char '/' :: _ => some 2
  | _ :: rest => (blockTail? rest).map (· + 1)
  | [] => none

/-- The length of the comment that a text begins with, if it begins with one. -/
def commentLength : List WideChar → Except Fault (Option Nat)
  | .char '/' :: .char '/' :: rest =>
    let line := rest.takeWhile (· ≠ .char '\n')
    .ok (some (2 + line.length + (if line.length < rest.length then 1 else 0)))
  | .char '/' :: .char '*' :: rest =>
    match blockTail? rest with
    | some length => .ok (some (2 + length))
    | none => .error .openComment
  | _ => .ok none

/-- Whether a comment documents the token after it. -/
def isDocumentation (comment : List WideChar) : Bool :=
  (WideString.ofString "/**").toList.isPrefixOf comment

/-! ### Tokens -/

/-- Where reading stands in a text. -/
structure Place where
  /-- The number of characters read. -/
  index : Nat
  /-- The line, as counted so far. -/
  line : Nat
  /-- The column of the next character. -/
  column : Nat
  deriving DecidableEq, Repr

/-- The place at the start of a text. -/
def Place.start : Place := ⟨0, 1, 1⟩

/-- The place behind blanks or a comment. -/
def Place.over (place : Place) (gap : List WideChar) : Place where
  index := place.index + gap.length
  line := place.line + gap.count (.char '\n')
  column :=
    if gap.contains (.char '\n') then (gap.reverse.takeWhile (· ≠ .char '\n')).length + 1
    else place.column + gap.length

/-- The place behind a token. -/
def Place.after (place : Place) (length : Nat) : Place where
  index := place.index + length
  line := place.line
  column := place.column + length

/-- A fault, the place where its token or comment begins and where the token before it ends. -/
structure Trouble where
  /-- What is wrong. -/
  fault : Fault
  /-- Where the token or comment begins. -/
  place : Place
  /-- Where the token before it ends. -/
  previousEnd : Nat
  deriving DecidableEq, Repr

/-- The tokens of the rest of a text.  `previousEnd` is where the last token ended and `pending` the
documentation that the next token takes.  Every round reads at least one character, so as many
rounds as characters are enough. -/
def tokensFrom :
    Nat → Place → Nat → Option WideString → List WideChar → Except Trouble (List Token)
  | 0, _, _, _, _ => .ok []
  | _ + 1, _, _, _, [] => .ok []
  | rounds + 1, place, previousEnd, pending, c :: rest =>
    if isBlank c then
      let gap := c :: rest.takeWhile isBlank
      tokensFrom rounds (place.over gap) previousEnd pending (rest.dropWhile isBlank)
    else match commentLength (c :: rest) with
      | .error fault => .error ⟨fault, place, previousEnd⟩
      | .ok (some length) =>
        let comment := (c :: rest).take length
        let pending := if isDocumentation comment then some ⟨comment⟩ else pending
        tokensFrom rounds (place.over comment) previousEnd pending ((c :: rest).drop length)
      | .ok none =>
        match lexeme c rest with
        | .error fault => .error ⟨fault, place, previousEnd⟩
        | .ok (cls, length) =>
          let token : Token :=
            { cls
              text := ⟨(c :: rest).take length⟩
              position := ⟨place.line, place.column⟩
              comment := pending }
          let after := place.after length
          (tokensFrom rounds after after.index none ((c :: rest).drop length)).map (token :: ·)

/-- The tokens of a decoded text. -/
def ofText (text : List WideChar) : Except Trouble (List Token) :=
  tokensFrom text.length .start 0 none text

/-! ### Sources -/

/-- Why a source does not fall into tokens. -/
inductive SourceFault where
  /-- An escape that stands for no code point, in this source. -/
  | escape (source : List WideChar) (fault : Escape.Fault)
  /-- Trouble in the decoded text. -/
  | text (decoded : List WideChar) (trouble : Trouble)
  deriving DecidableEq, Repr

/-- The line around a place, trimmed.  Where no further line follows, the last character of the text
is left out. -/
def lineAround (text : List WideChar) (index : Nat) : List WideChar :=
  let before := (text.take index).reverse.takeWhile (· ≠ .char '\n')
  let after := (text.drop index).takeWhile (· ≠ .char '\n')
  let line := before.reverse ++ after
  trim (if index + after.length < text.length then line else line.dropLast)

/-- A lexical error: what is wrong, the code points concerned, the line and its text. -/
def lexical (problem : String) (shown text : List WideChar) (index line : Nat) : Diagnosis :=
  ⟨.lexical, problem ++ " at \"" ++ .ofList shown ++ "\", line " ++ toString line ++ ": " ++
    .ofList (lineAround text index)⟩

/-- A lexical error that shows the code point at a place of the text. -/
def lexicalAt (problem : String) (shownAt : Nat) (text : List WideChar) (place : Place) : Diagnosis :=
  match text[shownAt]? with
  | some c => lexical problem [c] text place.index place.line
  | none => .textIndex

/-- The diagnosis of trouble in a decoded text. -/
def Trouble.diagnosis (text : List WideChar) (trouble : Trouble) : Diagnosis :=
  let place := trouble.place
  match trouble.fault with
  | .openComment => lexicalAt "Unterminated block comment" trouble.previousEnd text place
  | .openString => lexicalAt "Unterminated character/string literal" trouble.previousEnd text place
  | .badEscape c => lexical "Illegal escape character" [c] text place.index place.line
  | .strayChar c => lexical "Could not process token" [c] text place.index place.line
  | .numeral (.noExponent length) =>
    lexicalAt "Invalid hex float literal" (place.index + length) text place
  | .numeral .cutOff => .missingText

/-- The diagnosis of a source that does not fall into tokens. -/
def SourceFault.diagnosis : SourceFault → Diagnosis
  | .escape source (.malformed digits) =>
    lexical "Invalid unicode escape" digits source 0 1
  | .escape _ .negative => ⟨.value, "chr() arg not in range(0x110000)"⟩
  | .text decoded trouble => trouble.diagnosis decoded

/-- The decoded text of a source and its tokens. -/
def ofSource (source : List WideChar) : Except SourceFault (List WideChar × List Token) :=
  match Escape.decode source with
  | .error fault => .error (.escape source fault)
  | .ok decoded =>
    match ofText decoded with
    | .error trouble => .error (.text decoded trouble)
    | .ok tokens => .ok (decoded, tokens)

end SourceDoc.Token
