import SourceDoc.Span.TokenText

/-!
# Initial values of fields

A field declaration may declare several variables.  The tokens of each initial value are found by
walking from the first declared name: an initial value ends at a comma, outside brackets, behind
which the next name is declared.
-/

namespace SourceDoc.TokenText

/-- Whether a variable of this name is declared at a token. -/
def declaratorAt (src : TokenText) (i : Int) (name : String) : Bool :=
  0 ≤ i && (src.token? i).any fun token =>
    token.cls == .identifier && token.value == name &&
      ["=", ",", ";", "["].any (src.hasValue (i + 1))

/-- The first declaration of the name among the next `count` tokens, outside type arguments. -/
def firstDeclaratorFrom (src : TokenText) (name : String) (angle i : Int) : Nat → Option Int
  | 0 => none
  | count + 1 =>
    if src.hasValue i "<" then src.firstDeclaratorFrom name (angle + 1) (i + 1) count
    else if src.hasValue i ">" then src.firstDeclaratorFrom name (angle - 1) (i + 1) count
    else if angle = 0 && src.declaratorAt i name then some i
    else src.firstDeclaratorFrom name angle (i + 1) count

/-- The first declaration of the name from `anchor` on and before `stop`. -/
def firstDeclarator (src : TokenText) (anchor stop : Int) (name : String) : Option Int :=
  src.firstDeclaratorFrom name 0 anchor (stop - anchor).toNat

/-- The first comma among the next `count` tokens, outside brackets, behind which the name is
declared. -/
def boundaryFrom (src : TokenText) (name : String) (depth j : Int) : Nat → Option Int
  | 0 => none
  | count + 1 =>
    if brackets.any (src.hasValue j ·.1) then src.boundaryFrom name (depth + 1) (j + 1) count
    else if brackets.any (src.hasValue j ·.2) then src.boundaryFrom name (depth - 1) (j + 1) count
    else if depth = 0 && src.hasValue j "," && src.declaratorAt (j + 1) name then some j
    else src.boundaryFrom name depth (j + 1) count

/-- Where the part of a declaration ends that begins at `start`: at the comma before the next name,
or at `stop`, if there is none. -/
def declaratorBoundary (src : TokenText) (start stop : Int) (next : Option String) : Int :=
  match next with
  | none => stop
  | some "" => stop
  | some name => (src.boundaryFrom name 0 start (stop - start).toNat).getD stop

/-- The index behind the square brackets that begin at a token. -/
def behindBrackets (src : TokenText) : Nat → Int → Except SpanFault Int
  | 0, j => .ok j
  | rounds + 1, j =>
    if src.hasValue j "[" then do src.behindBrackets rounds ((← src.closing j) + 1)
    else .ok j

variable {α : Type}

/-- What is read of the initial values of the variables whose names are given, the first of them
declared at `i`, in a declaration that ends at `stop`.  A value is read from its first to its last
token. -/
def readInitializersFrom (src : TokenText) (read : Int → Int → Except SpanFault α) (stop : Int) :
    Int → List String → Except SpanFault (List (Option α))
  | _, [] => .ok []
  | i, _ :: others => do
    let j ← src.behindBrackets src.size (i + 1)
    let assigned := src.hasValue j "="
    let start := if assigned then j + 1 else j
    let boundary := src.declaratorBoundary start stop others.head?
    let value ← if assigned then some <$> read start (boundary - 1) else pure none
    if stop ≤ boundary then return value :: others.map fun _ => none
    else return value :: (← src.readInitializersFrom read stop (boundary + 1) others)

/-- What is read of the initial value of each variable of a field declaration at a position, given the
names of the variables and whether they have one. -/
def readInitializers (src : TokenText) (read : Int → Int → Except SpanFault α)
    (position : Option Position) (declared : List (String × Bool)) :
    Except SpanFault (List (Option α)) := do
  let missing := declared.map fun _ => none
  if declared.all (!·.2) then return missing
  let anchor ← src.indexOf "FieldDeclaration" position
  let stop ← src.statementEnd anchor
  let names := declared.map (·.1)
  match src.firstDeclarator anchor stop (names.headD "") with
  | none => return missing
  | some i => src.readInitializersFrom read stop i names

/-- The texts of the initial values of the variables of a field declaration. -/
def initializers (src : TokenText) (position : Option Position) (declared : List (String × Bool)) :
    Except SpanFault (List (Option WideString)) :=
  src.readInitializers src.cut position declared

end SourceDoc.TokenText
