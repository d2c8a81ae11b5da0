import SourceDoc.Text.Numeral
import SourceDoc.Text.WideString

/-!
# Decoding unicode escapes

Before a Java source is cut into tokens, each escape (a backslash, one or more `u`, four characters
that write a number in base sixteen) is replaced by the code point it stands for.  A backslash takes
the character after it along, so a doubled backslash opens no escape.  The four characters are read
leniently: blanks around them, a sign, `0x` and underscores are let through.

A source that ends right after the `u`s of an escape ends inside it.  The text since the previous
escape is then written once more, in front of the unfinished escape.
-/

namespace SourceDoc.Escape

open SourceDoc.Text

/-- Why an escape stands for no character. -/
inductive Fault where
  /-- The characters behind the `u`s write no number. -/
  | malformed (digits : List WideChar)
  /-- The number is negative. -/
  | negative
  deriving DecidableEq, Repr

/-- The code point that the characters behind the `u`s stand for. -/
def pointOfDigits (digits : List WideChar) : Except Fault WideChar :=
  match (WideChar.chars? digits).bind (integer? 16) with
  | none => .error (.malformed digits)
  | some code => if code < 0 then .error .negative else .ok (.ofNat code.toNat)

/-- Where the decoder stands. -/
inductive Mode where
  /-- Outside escapes. -/
  | plain
  /-- Behind a backslash that may open an escape. -/
  | backslash
  /-- Behind a backslash and this many `u`s. -/
  | marker (us : Nat)
  /-- Inside the number of an escape, of which this many characters are left. -/
  | digits (left : Nat)
  deriving DecidableEq, Repr

/-- What is still written where a source ends.  `piece` is the text since the previous escape, last
character first. -/
def ending (piece : List WideChar) : Mode → List WideChar
  | .plain => []
  | .backslash => [.char '\\']
  | .marker us => piece.reverse ++ .char '\\' :: List.replicate us (.char 'u')
  | .digits _ => []

/-- Decodes the rest of a source.  `piece` is the text since the previous escape, last character
first. -/
def decodeFrom (piece : List WideChar) (mode : Mode) : List WideChar → Except Fault (List WideChar)
  | [] => .ok (ending piece mode)
  | c :: rest =>
    match mode with
    | .plain =>
      if c = .char '\\' then decodeFrom piece .backslash rest
      else (decodeFrom (c :: piece) .plain rest).map (c :: ·)
    | .backslash =>
      if c = .char 'u' then decodeFrom piece (.marker 1) rest
      else (decodeFrom (c :: .char '\\' :: piece) .plain rest).map fun tail =>
        .char '\\' :: c :: tail
    | .marker us =>
      if c = .char 'u' then decodeFrom piece (.marker (us + 1)) rest
      else do
        let point ← pointOfDigits ((c :: rest).take 4)
        return point :: (← decodeFrom [] (.digits 3) rest)
    | .digits left => decodeFrom [] (if left ≤ 1 then .plain else .digits (left - 1)) rest

/-- The source with its escapes replaced by the code points they stand for. -/
def decode (source : List WideChar) : Except Fault (List WideChar) :=
  decodeFrom [] .plain source

end SourceDoc.Escape
