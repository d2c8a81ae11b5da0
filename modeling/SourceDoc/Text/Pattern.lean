import SourceDoc.Text.WideString

/-!
# Patterns

A pattern is matched against a text from a place on.  There may be several ways to do so, and they are
tried in an order: a repetition goes on as long as it can, and stops earlier only if what follows does
not match otherwise.  The first way that works is the match.

A text is searched from left to right.  Where the pattern matches, the search goes on behind the match,
and one code point further otherwise; what has been passed can still be seen by a pattern that looks
back.
-/

namespace SourceDoc.Text

/-! ### Places -/

/-- A place in a text, as a match passes through it. -/
structure Cursor where
  /-- How many code points have been passed. -/
  place : Nat
  /-- The last code point that has been passed. -/
  behind : Option WideChar
  /-- The code points that are left. -/
  rest : List WideChar
  /-- Where the part that was noted last begins and ends. -/
  noted : Option (Nat × Nat)
  deriving DecidableEq, Repr

namespace Cursor

/-- The start of a text. -/
def start (text : List WideChar) : Cursor := ⟨0, none, text, none⟩

/-- The place behind the next code point; the end stays where it is. -/
def next (cursor : Cursor) : Cursor :=
  match cursor.rest with
  | [] => cursor
  | c :: rest => { cursor with place := cursor.place + 1, behind := some c, rest }

end Cursor

/-! ### Matches -/

/-- What a text is searched for. -/
inductive Pattern where
  /-- Nothing, which is found everywhere. -/
  | nothing
  /-- One code point of a kind. -/
  | one (kind : WideChar → Bool)
  /-- Nothing, but not behind a code point of a kind. -/
  | notBehind (kind : WideChar → Bool)
  /-- One pattern, and then another. -/
  | followed (first second : Pattern)
  /-- A pattern as often as possible, or less often. -/
  | many (pattern : Pattern)
  /-- A pattern, of which is noted where it begins and ends. -/
  | noted (pattern : Pattern)

namespace Pattern

/-- Patterns one after the other. -/
def row (patterns : List Pattern) : Pattern :=
  patterns.foldr .followed .nothing

/-- Where a repetition can end, the longest first.  Each round passes one code point at least, so that
there are no more rounds than code points left. -/
def rounds (round : Cursor → List Cursor) : List WideChar → Cursor → List Cursor
  | [], cursor => [cursor]
  | _ :: left, cursor =>
    ((round cursor).filter (cursor.place < ·.place)).flatMap (rounds round left) ++ [cursor]

/-- Where a pattern can end that begins at a place, in the order in which the ways to match it are
tried. -/
def ends : Pattern → Cursor → List Cursor
  | .nothing, cursor => [cursor]
  | .one kind, cursor => if cursor.rest.head?.any kind then [cursor.next] else []
  | .notBehind kind, cursor => if cursor.behind.any kind then [] else [cursor]
  | .followed first second, cursor => (first.ends cursor).flatMap second.ends
  | .many pattern, cursor => rounds pattern.ends cursor.rest cursor
  | .noted pattern, cursor =>
    (pattern.ends cursor).map fun last => { last with noted := some (cursor.place, last.place) }

/-- Where the pattern ends that begins at a place.  Matches of no code points are passed over. -/
def end? (pattern : Pattern) (cursor : Cursor) : Option Cursor :=
  (pattern.ends cursor).find? (cursor.place < ·.place)

/-- Where the matches of a pattern end, from a place on.  Each is looked for behind the one before. -/
def matchesFrom (pattern : Pattern) : List WideChar → Cursor → List Cursor
  | [], _ => []
  | _ :: left, cursor =>
    match pattern.end? cursor with
    | some last => last :: pattern.matchesFrom left last
    | none => pattern.matchesFrom left cursor.next

/-- The parts of a text that the matches of a pattern note, in order: where each begins and where it
ends. -/
def parts (pattern : Pattern) (text : List WideChar) : List (Nat × Nat) :=
  (pattern.matchesFrom text (.start text)).filterMap (·.noted)

end Pattern

end SourceDoc.Text
