import SourceDoc.Text.Blank
import SourceDoc.Text.PathName

/-!
# Simple names of types

The simple name of a type leaves out its qualification, its type arguments and its dimensions.
Angle brackets are removed from the inside out, pair by pair, until nothing changes; those without a
partner stay.
-/

namespace SourceDoc

open SourceDoc.Text

/-- An opening angle bracket and what stands behind it, last character first, if one is held back. -/
def heldText : Option (List Char) → List Char
  | none => []
  | some inside => '<' :: inside.reverse

/-- The text without the pairs of angle brackets that contain no angle bracket.  What stands behind
the last opening bracket is held back until it is known whether the bracket has a partner. -/
def dropInnermost (held : Option (List Char)) : List Char → List Char
  | [] => heldText held
  | c :: rest =>
    if c = '<' then heldText held ++ dropInnermost (some []) rest
    else match held with
      | none => c :: dropInnermost none rest
      | some inside =>
        if c = '>' then dropInnermost none rest else dropInnermost (some (c :: inside)) rest

/-- Removes innermost pairs until nothing changes, at most a number of times. -/
def dropGroupsWithin : Nat → List Char → List Char
  | 0, text => text
  | rounds + 1, text =>
    let shorter := dropInnermost none text
    if shorter = text then text else dropGroupsWithin rounds shorter

/-- The text without type arguments.  Every round that changes the text removes an opening bracket,
so their number is enough rounds. -/
def dropGroups (text : List Char) : List Char :=
  dropGroupsWithin (text.count '<') text

/-- The text without empty pairs of square brackets. -/
def dropDimensions : List Char → List Char
  | [] => []
  | '[' :: ']' :: rest => dropDimensions rest
  | c :: rest => c :: dropDimensions rest

/-- The simple name of a type as written. -/
def simpleTypeName (typeText : String) : String :=
  String.ofList (afterLast '.' (trim (dropDimensions (dropGroups typeText.toList))))

end SourceDoc
