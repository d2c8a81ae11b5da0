import SourceDoc.Text.Blank

/-!
# Files with variables

A line of such a file sets a variable: a name, an equals sign and a value, with blanks around both
and `export` in front if one likes.  A name without equals sign has no value.  A value may stand
between quotes, where a backslash always goes with the character behind it, and may then span lines;
otherwise it ends with the line or at a number sign behind a blank.  Lines that begin with a number
sign are comments, a line that makes no sense is passed over, and a byte order mark at the start of
the file is no part of it.
-/

namespace SourceDoc.VariableFile

open SourceDoc.Text

/-- The single quote. -/
def singleQuote : Char := '\''

/-- The double quote. -/
def doubleQuote : Char := '"'

/-- The name and the value of a variable. -/
abbrev Entry := String × Option String

/-- What was read and the rest of the text, or the place at which reading stopped. -/
abbrev Reading (α : Type) := Except (List Char) (α × List Char)

/-- Whether a character is a blank that does not end the line. -/
def isInlineBlank (c : Char) : Bool := isBlank c && c != '\n' && c != '\r'

/-- Whether a character does not end the line. -/
def isInline (c : Char) : Bool := c != '\n' && c != '\r'

/-! ### Names -/

/-- The text without `export` and the blanks behind it. -/
def skipExport (text : List Char) : List Char :=
  if "export".toList.isPrefixOf text then
    let rest := text.drop 6
    if rest.head?.any isInlineBlank then rest.dropWhile isInlineBlank else text
  else text

/-- Whether a character may stand in a name without quotes. -/
def isNameChar (c : Char) : Bool := c != '=' && c != '#' && !isBlank c

/-- Reads a name; a comment has none. -/
def readName (text : List Char) : Reading (Option String) :=
  match text with
  | [] => .error text
  | c :: rest =>
    if c = '#' then .ok (none, text)
    else if c = singleQuote then
      let name := rest.takeWhile (· != singleQuote)
      match rest.dropWhile (· != singleQuote) with
      | [] => .error text
      | _ :: after => if name.isEmpty then .error text else .ok (some (String.ofList name), after)
    else
      let name := text.takeWhile isNameChar
      if name.isEmpty then .error text
      else .ok (some (String.ofList name), text.dropWhile isNameChar)

/-! ### Values -/

/-- The text up to the first quote that no backslash escapes, and what follows the quote.  `escaped`
tells whether the next character goes with a backslash. -/
def closeQuote (quote : Char) (escaped : Bool) : List Char → Option (List Char × List Char)
  | [] => none
  | c :: rest =>
    if c = quote && !escaped then some ([], rest)
    else (closeQuote quote (c = '\\' && !escaped) rest).map fun (body, after) => (c :: body, after)

/-- What a backslash and a character between single quotes write. -/
def singleEscape? (c : Char) : Option Char :=
  if c = '\\' || c = singleQuote then some c else none

/-- What a backslash and a character between double quotes write. -/
def doubleEscape? (c : Char) : Option Char :=
  if c = '\\' || c = singleQuote || c = doubleQuote then some c
  else if c = 'a' then some (Char.ofNat 0x07)
  else if c = 'b' then some (Char.ofNat 0x08)
  else if c = 'f' then some (Char.ofNat 0x0c)
  else if c = 'n' then some '\n'
  else if c = 'r' then some '\r'
  else if c = 't' then some '\t'
  else if c = 'v' then some (Char.ofNat 0x0b)
  else none

/-- The text with its escapes replaced.  `escaped` tells whether a backslash came last and is still
to be written. -/
def unescape (escape? : Char → Option Char) (escaped : Bool) : List Char → List Char
  | [] => if escaped then ['\\'] else []
  | c :: rest =>
    if escaped then
      match escape? c with
      | some d => d :: unescape escape? false rest
      | none => '\\' :: c :: unescape escape? false rest
    else if c = '\\' then unescape escape? true rest
    else c :: unescape escape? false rest

/-- Reads the rest of a value behind its opening quote. -/
def readQuoted (quote : Char) (escape? : Char → Option Char) (rest : List Char) :
    Reading String :=
  match closeQuote quote false rest with
  | none => .error (quote :: rest)
  | some (body, after) => .ok (String.ofList (unescape escape? false body), after)

/-- The line without a comment.  `apart` tells whether a blank came last. -/
def uncomment (apart : Bool) : List Char → List Char
  | [] => []
  | c :: rest => if c = '#' && apart then [] else c :: uncomment (isBlank c) rest

/-- Reads a value.  `apart` tells whether a blank stands in front of it. -/
def readValue (apart : Bool) (text : List Char) : Reading String :=
  match text with
  | [] => .ok ("", text)
  | c :: rest =>
    if c = singleQuote then readQuoted singleQuote singleEscape? rest
    else if c = doubleQuote then readQuoted doubleQuote doubleEscape? rest
    else
      .ok (String.ofList (trimRight (uncomment apart (text.takeWhile isInline))),
        text.dropWhile isInline)

/-! ### Lines -/

/-- The text without the rest of its line. -/
def skipLine (text : List Char) : List Char :=
  (text.dropWhile isInline).drop 1

/-- The text without a comment at its start. -/
def skipComment (text : List Char) : List Char :=
  match text.dropWhile isInlineBlank with
  | '#' :: rest => rest.dropWhile isInline
  | _ => text

/-- Reads the end of a line. -/
def readEnd (text : List Char) : Reading Unit :=
  match text.dropWhile isInlineBlank with
  | [] => .ok ((), [])
  | c :: rest => if isInline c then .error text else .ok ((), rest)

/-- Reads the value of a variable behind its name, if there is an equals sign. -/
def readAssigned (text : List Char) : Reading (Option String) :=
  match text.dropWhile isInlineBlank with
  | '=' :: rest =>
    let apart := rest.head?.any isInlineBlank
    (readValue apart (rest.dropWhile isInlineBlank)).map fun (v, after) => (some v, after)
  | other => .ok (none, other)

/-- Reads a line that does not begin with a blank. -/
def readLine (text : List Char) : Except (List Char) (Option Entry × List Char) := do
  let (name, text) ← readName (skipExport text)
  let (value, text) ← readAssigned text
  let (_, text) ← readEnd (skipComment text)
  return (name.map (·, value), text)

/-- The variables that a text sets, at most a number of lines being read. -/
def entriesWithin : Nat → List Char → List Entry
  | 0, _ => []
  | lines + 1, text =>
    let text := trimLeft text
    if text.isEmpty then []
    else match readLine text with
      | .ok (entry, rest) => entry.toList ++ entriesWithin lines rest
      | .error stopped => entriesWithin lines (skipLine stopped)

/-- The byte order mark. -/
def byteOrderMark : Char := Char.ofNat 0xfeff

/-- The text without a byte order mark at its start. -/
def skipMark (text : List Char) : List Char :=
  if text.head? = some byteOrderMark then text.drop 1 else text

/-- The variables that a text sets, in order.  Every line takes at least one character. -/
def entries (text : List Char) : List Entry :=
  entriesWithin text.length (skipMark text)

end SourceDoc.VariableFile
