import SourceDoc.Text.Printable
import SourceDoc.Text.WideString

/-!
# Quoted text

Messages show a text between quotes: single ones, unless it contains single quotes and no double
ones.  Inside, the chosen quote and the backslash are escaped, and characters that would not be
visible are written by name or number.
-/

namespace SourceDoc.Text

/-- The number in lower-case hexadecimal, with leading zeros up to the given width. -/
def hexPadded (width n : Nat) : List Char :=
  let digits := Nat.toDigits 16 n
  List.replicate (width - digits.length) '0' ++ digits

/-- One code point between quotes of the given kind. -/
def quoteChar (quote : Char) (c : WideChar) : List Char :=
  if c = quote || c = '\\' then ['\\', c.toChar]
  else if c = '\n' then ['\\', 'n']
  else if c = '\r' then ['\\', 'r']
  else if c = '\t' then ['\\', 't']
  else if c.satisfies isPrintable then [c.toChar]
  else if c.toNat < 0x100 then '\\' :: 'x' :: hexPadded 2 c.toNat
  else if c.toNat < 0x10000 then '\\' :: 'u' :: hexPadded 4 c.toNat
  else '\\' :: 'U' :: hexPadded 8 c.toNat

/-- The quote that a text is shown between. -/
def quoteFor (text : List WideChar) : Char :=
  if text.contains (.char '\'') && !text.contains (.char '"') then '"' else '\''

/-- The text as shown in a message. -/
def quoted (text : WideString) : String :=
  let quote := quoteFor text.toList
  String.ofList (quote :: text.toList.flatMap (quoteChar quote) ++ [quote])

/-- A list of texts as shown in a message. -/
def quotedList (texts : List WideString) : String :=
  "[" ++ ", ".intercalate (texts.map quoted) ++ "]"

end SourceDoc.Text
