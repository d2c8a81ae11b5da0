import SourceDoc.Text.WideString

/-!
# Blank characters

Blank characters separate words and are dropped at the ends of a text.  They are the separators and
the control characters that move the writing position, in every script.
-/

namespace SourceDoc.Text

/-- A type of symbols, some of which are blank. -/
class Blank (α : Type) where
  /-- Whether a symbol is blank. -/
  isBlank : α → Bool

export Blank (isBlank)

/-- Whether the character is blank. -/
def isBlankChar (c : Char) : Bool :=
  let n := c.toNat
  (0x09 ≤ n && n ≤ 0x0d) || (0x1c ≤ n && n ≤ 0x20) || n == 0x85 || n == 0xa0 || n == 0x1680 ||
    (0x2000 ≤ n && n ≤ 0x200a) || n == 0x2028 || n == 0x2029 || n == 0x202f || n == 0x205f ||
    n == 0x3000

instance : Blank Char := ⟨isBlankChar⟩

instance : Blank WideChar := ⟨WideChar.satisfies isBlankChar⟩

/-- The text without the blanks in front of it. -/
def trimLeft {α : Type} [Blank α] (text : List α) : List α :=
  text.dropWhile isBlank

/-- The text without the blanks behind it. -/
def trimRight {α : Type} [Blank α] (text : List α) : List α :=
  (text.reverse.dropWhile isBlank).reverse

/-- The text without the blanks around it. -/
def trim {α : Type} [Blank α] (text : List α) : List α :=
  trimRight (trimLeft text)

/-- The text with each run of blanks replaced by one space; `inRun` tells whether a run has already
been replaced just before. -/
def squeezeFrom (inRun : Bool) : List WideChar → List WideChar
  | [] => []
  | c :: rest =>
    if isBlank c then
      if inRun then squeezeFrom true rest else .char ' ' :: squeezeFrom true rest
    else c :: squeezeFrom false rest

/-- The text on one line: runs of blanks become single spaces, and none remain at the ends. -/
def oneLine (text : List WideChar) : List WideChar :=
  trim (squeezeFrom false text)

/-- The first word of a text that does not begin with a blank, and what follows it. -/
def splitWord (text : List WideChar) : List WideChar × List WideChar :=
  text.span (!isBlank ·)

end SourceDoc.Text
