import SourceDoc.Text.WideString

/-!
# Lines

A text falls into lines at line feeds, carriage returns, the pair of both, and the other characters
that end a line or a paragraph.  A break at the very end opens no further line.
-/

namespace SourceDoc.Text

/-- Whether the character ends a line. -/
def isLineBreak (c : Char) : Bool :=
  let n := c.toNat
  (0x0a ≤ n && n ≤ 0x0d) || (0x1c ≤ n && n ≤ 0x1e) || n == 0x85 || n == 0x2028 || n == 0x2029

/-- The lines of a text, without the characters that end them. -/
def splitLines : List WideChar → List (List WideChar)
  | [] => []
  | .char '\r' :: .char '\n' :: rest => [] :: splitLines rest
  | c :: rest =>
    if c.satisfies isLineBreak then [] :: splitLines rest
    else match splitLines rest with
      | [] => [[c]]
      | line :: lines => (c :: line) :: lines

/-- The lines joined by line feeds. -/
def joinLines (lines : List (List WideChar)) : List WideChar :=
  List.intercalate [.char '\n'] lines

/-- The rest of a text with its line breaks of the forms `\r\n` and `\r` written as `\n`; `inBreak` tells
whether a carriage return came just before.  The symbol of a character is given by `letter`. -/
def newlinesFrom {α : Type} [DecidableEq α] (letter : Char → α) (inBreak : Bool) : List α → List α
  | [] => []
  | c :: rest =>
    if c = letter '\r' then letter '\n' :: newlinesFrom letter true rest
    else if inBreak && c = letter '\n' then newlinesFrom letter false rest
    else c :: newlinesFrom letter false rest

/-- The text with every line break of the forms `\r\n` and `\r` written as `\n`. -/
def universalNewlines {α : Type} [DecidableEq α] (letter : Char → α) (text : List α) : List α :=
  newlinesFrom letter false text

end SourceDoc.Text
