import SourceDoc.Token.Basic

/-!
# Numeric literals

How far a numeric literal reaches, and its class.  Digits may be grouped by underscores, and an
integer suffix `l` or `L` is taken with any group of digits.  A literal that needs a further
character where the text ends is cut off; a hexadecimal fraction needs an exponent.
-/

namespace SourceDoc.Token.Numeral

/-- Why a numeric literal cannot be read. -/
inductive Fault where
  /-- The text ends where a character is still needed. -/
  | cutOff
  /-- A hexadecimal fraction without an exponent, and how many characters were read. -/
  | noExponent (length : Nat)
  deriving DecidableEq, Repr

/-- The length of a group of digits: digits and the underscores before further digits, then the
suffix, if the first character behind the digits and underscores is one.  A suffix behind trailing
underscores gives way to the first of them. -/
def groupLength (isDigit : Char → Bool) (text : List WideChar) : Except Fault Nat :=
  let run := text.takeWhile (·.satisfies fun c => isDigit c || c == '_')
  let length := (run.reverse.dropWhile (· = .char '_')).length
  match text.drop run.length with
  | c :: _ => .ok (if c = 'l' || c = 'L' then length + 1 else length)
  | [] => if run.isEmpty then .error .cutOff else .ok length

/-- Whether the character is a binary digit. -/
def isBinary (c : Char) : Bool := c = '0' || c = '1'

/-- Whether the character is an octal digit. -/
def isOctal (c : Char) : Bool := '0' ≤ c && c ≤ '7'

/-- Whether the character is a hexadecimal digit. -/
def isHex (c : Char) : Bool := c.isDigit || ('a' ≤ c && c ≤ 'f') || ('A' ≤ c && c ≤ 'F')

/-- Whether a text begins with one of the characters. -/
def startsWithAny (choices : List Char) (text : List WideChar) : Bool :=
  match text with
  | c :: _ => c.satisfies choices.contains
  | [] => false

/-- The length of an exponent, its letter included: an optional sign and a group of digits. -/
def exponentLength (text : List WideChar) : Except Fault Nat := do
  let sign := if startsWithAny ['-', '+'] (text.drop 1) then 1 else 0
  let digits ← groupLength Char.isDigit (text.drop (1 + sign))
  return 1 + sign + digits

/-- The length with the suffix of a floating-point literal, if one follows. -/
def withFloatSuffix (text : List WideChar) (length : Nat) : Nat :=
  if startsWithAny ['f', 'F', 'd', 'D'] (text.drop length) then length + 1 else length

/-- A decimal literal, integer or floating-point. -/
def decimal (text : List WideChar) : Except Fault (TokenClass × Nat) := do
  let whole ← groupLength Char.isDigit text
  if !startsWithAny ['.', 'e', 'E', 'f', 'F', 'd', 'D'] (text.drop whole) then
    return (.decimalInteger, whole)
  let fraction ←
    if startsWithAny ['.'] (text.drop whole) then
      (groupLength Char.isDigit (text.drop (whole + 1))).map (whole + 1 + ·)
    else pure whole
  let exponent ←
    if startsWithAny ['e', 'E'] (text.drop fraction) then
      (exponentLength (text.drop fraction)).map (fraction + ·)
    else pure fraction
  return (.decimalFloat, withFloatSuffix text exponent)

/-- A hexadecimal literal, integer or floating-point. -/
def hexadecimal (text : List WideChar) : Except Fault (TokenClass × Nat) := do
  let whole ← (groupLength isHex (text.drop 2)).map (2 + ·)
  if !startsWithAny ['.', 'p', 'P'] (text.drop whole) then
    return (.hexInteger, whole)
  let fraction ←
    if startsWithAny ['.'] (text.drop whole) then
      (groupLength isHex (text.drop (whole + 1))).map (whole + 1 + ·)
    else pure whole
  if startsWithAny ['p', 'P'] (text.drop fraction) then
    let exponent ← (exponentLength (text.drop fraction)).map (fraction + ·)
    return (.hexFloat, withFloatSuffix text exponent)
  else throw (.noExponent fraction)

/-- The numeric literal that a text beginning with a digit begins with. -/
def literal : List WideChar → Except Fault (TokenClass × Nat)
  | [.char '0'] => .error .cutOff
  | text@(.char '0' :: c :: rest) =>
    if c = 'x' || c = 'X' then hexadecimal text
    else if c = 'b' || c = 'B' then
      (groupLength isBinary rest).map fun length => (.binaryInteger, 2 + length)
    else if c.satisfies isOctal then
      (groupLength isOctal (c :: rest)).map fun length => (.octalInteger, 1 + length)
    else decimal text
  | text => decimal text

end SourceDoc.Token.Numeral
