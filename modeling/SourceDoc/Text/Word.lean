import SourceDoc.Text.Digit
import SourceDoc.Text.Letter

/-!
# Word characters
-/

namespace SourceDoc.Text

/-- Whether the character may stand in a word: a letter, a number or an underscore. -/
def isWordChar (c : Char) : Bool :=
  isLetter c || isNumber c || c == '_'

end SourceDoc.Text
