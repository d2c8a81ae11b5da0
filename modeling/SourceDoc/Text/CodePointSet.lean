/-!
# Sets of code points

A set of code points is kept as the ascending list of places where membership changes: the first
entry opens the first run of members, the second closes it, and so on.
-/

namespace SourceDoc.Text

/-- A set of code points, as the ascending list of places where membership changes. -/
structure CodePointSet where
  /-- The first members and the first non-members after them, alternating. -/
  changes : List Nat

namespace CodePointSet

/-- Whether `n` is a member, where `inside` holds just before the first of the remaining changes. -/
def containsFrom (n : Nat) (inside : Bool) : List Nat → Bool
  | [] => inside
  | change :: rest => if n < change then inside else containsFrom n (!inside) rest

/-- Whether the character's code point is a member. -/
def contains (s : CodePointSet) (c : Char) : Bool :=
  containsFrom c.toNat false s.changes

end CodePointSet

end SourceDoc.Text
