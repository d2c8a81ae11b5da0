import SourceDoc.Text.Pattern

/-!
# Where decoded characters stand in the source

Texts are cut from the source as written, while tokens count characters of the decoded text.  The
table of offsets leads from the second to the first.  It takes for an escape a backslash, preceded
by an even number of backslashes, with one or more `u` and four hexadecimal digits behind it; this
is stricter than decoding, which lets other characters through as digits.

The escapes are searched for with a pattern: pairs of backslashes that no backslash stands before, and
then the escape.
-/

namespace SourceDoc.Escape

open SourceDoc.Text

/-- Whether the character is a hexadecimal digit. -/
def isHexDigit : WideChar → Bool :=
  WideChar.satisfies fun c => c.isDigit || ('a' ≤ c && c ≤ 'f') || ('A' ≤ c && c ≤ 'F')

/-- A backslash. -/
def backslash : Pattern := .one (· == .char '\\')

/-- A backslash, one or more `u` and four hexadecimal digits. -/
def escapePattern : Pattern :=
  .row ([backslash, .one (· == .char 'u'), .many (.one (· == .char 'u'))] ++
    List.replicate 4 (.one isHexDigit))

/-- An escape with the pairs of backslashes before it, of which the escape itself is noted. -/
def pairsAndEscape : Pattern :=
  .row [.notBehind (· == .char '\\'), .many (.row [backslash, backslash]), .noted escapePattern]

/-- The places of a text from `last` on up to its end at `stop`, but of each part only the first. -/
def placesFrom (stop last : Nat) : List (Nat × Nat) → List Nat
  | [] => List.range' last (stop + 1 - last)
  | (first, next) :: parts =>
    List.range' last (first - last) ++ first :: placesFrom stop next parts

/-- Whether a backslash with a `u` behind it occurs. -/
def mentionsEscape : List WideChar → Bool
  | [] => false
  | c :: rest => (c = .char '\\' && rest.head? = some (.char 'u')) || mentionsEscape rest

/-- The offset in the source of every character of the decoded text, and of its end; nothing for a
source in which no escape can occur. -/
def offsets? (source : List WideChar) : Option (List Nat) :=
  if mentionsEscape source then some (placesFrom source.length 0 (pairsAndEscape.parts source))
  else none

end SourceDoc.Escape
