import SourceDoc.Text.CaseTable

/-!
# Upper and lower case

Full case conversion: a character may become several (`ß` is `SS` in upper case), and the lower case
of a capital sigma depends on whether it ends a word.
-/

namespace SourceDoc.Text

/-- The counterpart of a character beyond ASCII, by a table of runs and a table of expansions. -/
def counterpart (runs : List CaseRun) (expansions : List (Nat × List Nat)) (c : Char) : List Char :=
  match expansions.lookup c.toNat with
  | some longer => longer.map Char.ofNat
  | none => [((runs.findSome? (·.counterpart? c.toNat)).map Char.ofNat).getD c]

/-- The upper case of one character. -/
def upperChar (c : Char) : List Char :=
  if c.toNat < 0x80 then [c.toUpper] else counterpart upperRuns upperExpansions c

/-- The upper case of a text. -/
def upper (text : List Char) : List Char :=
  text.flatMap upperChar

/-- Whether the first character that is not looked through has case. -/
def meetsCased (text : List Char) : Bool :=
  match text.dropWhile caseIgnorables.contains with
  | [] => false
  | c :: _ => casedLetters.contains c

/-- The lower case of one character, given the text before it (last character first) and after it:
a capital sigma is written `ς` where a cased letter precedes and none follows. -/
def lowerChar (before : List Char) (c : Char) (after : List Char) : List Char :=
  if c = 'Σ' then
    if meetsCased before && !meetsCased after then ['ς'] else ['σ']
  else if c.toNat < 0x80 then [c.toLower]
  else counterpart lowerRuns lowerExpansions c

/-- The lower case of the rest of a text, given what precedes it, last character first. -/
def lowerAfter (before : List Char) : List Char → List Char
  | [] => []
  | c :: rest => lowerChar before c rest ++ lowerAfter (c :: before) rest

/-- The lower case of a text. -/
def lower (text : List Char) : List Char :=
  lowerAfter [] text

end SourceDoc.Text
