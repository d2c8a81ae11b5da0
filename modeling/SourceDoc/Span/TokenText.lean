import SourceDoc.Diagnosis
import SourceDoc.Escape.Offsets
import SourceDoc.Text.Quoted
import SourceDoc.Token.Basic

/-!
# Token lists with their text

The syntax tree tells where declarations start and not where they end.  The ends are found by walking
the token list from the start, counting brackets, and the texts of declarations are then cut from the
source as written.

Tokens are counted from zero, and below zero from the end: the last token is also that with index
`-1`.  A walk from an index below zero passes the last tokens and then goes on with all tokens, from
the first on.
-/

namespace SourceDoc

open SourceDoc.Text

/-- Why a range of tokens or its text cannot be found. -/
inductive SpanFault where
  /-- No token stands where this kind of node should start. -/
  | noStart (node : String)
  /-- No token with this text follows. -/
  | notFound (value : String) (start : Int)
  /-- A bracket without a partner. -/
  | unbalanced (opener : String) (position : Position)
  /-- A token that is no opening bracket. -/
  | noBracket (text : WideString)
  /-- A place outside a list. -/
  | outOfRange
  deriving DecidableEq, Repr

/-- The diagnosis of a range that cannot be found. -/
def SpanFault.diagnosis : SpanFault → Diagnosis
  | .noStart node => ⟨.lookup, "no start token for " ++ node⟩
  | .notFound value start => ⟨.lookup, quoted value ++ " not found after token " ++ toString start⟩
  | .unbalanced opener position =>
    ⟨.lookup, "unbalanced " ++ quoted opener ++ " at " ++ position.text⟩
  | .noBracket text => ⟨.key, quoted text⟩
  | .outOfRange => .listIndex

/-- The tokens of a text, with the text itself and the source it was decoded from. -/
structure TokenText where
  /-- The text that the tokens were read from. -/
  data : List WideChar
  /-- The text that ranges are cut from. -/
  source : List WideChar
  /-- The tokens. -/
  tokens : Array Token
  /-- Where the code points of `data` stand in `source`, if the two differ. -/
  offsets : Option (List Nat)

namespace TokenText

/-- The tokens of a text; with a source, texts are cut from it. -/
def ofTokens (data : List WideChar) (tokens : List Token) (source : Option (List WideChar)) :
    TokenText where
  data
  source := source.getD data
  tokens := tokens.toArray
  offsets := source.bind Escape.offsets?

/-- Where lines start in the rest of a text that begins at `place`. -/
def lineStartsFrom (place : Nat) : List WideChar → List Nat
  | [] => []
  | c :: rest =>
    if c = '\n' then (place + 1) :: lineStartsFrom (place + 1) rest
    else lineStartsFrom (place + 1) rest

/-- Where the lines of a text start. -/
def lineStarts (data : List WideChar) : List Nat := 0 :: lineStartsFrom 0 data

/-! ### Tokens by index -/

/-- The number of tokens. -/
def size (src : TokenText) : Nat := src.tokens.size

/-- The token with an index. -/
def token? (src : TokenText) (i : Int) : Option Token :=
  if 0 ≤ i then src.tokens[i.toNat]?
  else if -(src.size : Int) ≤ i then src.tokens[(src.size + i).toNat]?
  else none

/-- The token with an index, which must exist. -/
def token (src : TokenText) (i : Int) : Except SpanFault Token :=
  match src.token? i with
  | some token => .ok token
  | none => .error .outOfRange

/-- The tokens that a walk from an index passes. -/
def tokensFrom (src : TokenText) (i : Int) : Except SpanFault (List Token) :=
  if 0 ≤ i then .ok (src.tokens.toList.drop i.toNat)
  else if -(src.size : Int) ≤ i then
    .ok (src.tokens.toList.drop (src.size + i).toNat ++ src.tokens.toList)
  else .error .outOfRange

/-- The text of a token, counted from zero only. -/
def text? (src : TokenText) (i : Int) : Option WideString :=
  if 0 ≤ i then src.tokens[i.toNat]?.map (·.text) else none

/-- Whether the token has this text, counted from zero only. -/
def hasValue (src : TokenText) (i : Int) (value : String) : Bool :=
  src.text? i == some (.ofString value)

/-- The index of the last token at a position. -/
def indexOf (src : TokenText) (node : String) (position : Option Position) :
    Except SpanFault Int :=
  match position.bind fun p =>
    (List.range src.size).reverse.find? fun i => src.tokens[i]?.any (·.position == p) with
  | some i => .ok i
  | none => .error (.noStart node)

/-! ### Places and texts -/

/-- Where a token starts in the decoded text, counted from its line and column. -/
def offset (src : TokenText) (i : Int) : Except SpanFault Nat := do
  let token ← src.token i
  match (lineStarts src.data)[token.position.line - 1]? with
  | none => throw .outOfRange
  | some start => return start + token.position.column - 1

/-- The place in the source of a place in the decoded text. -/
def sourcePlace (src : TokenText) (place : Nat) : Except SpanFault Nat :=
  match src.offsets with
  | none => .ok place
  | some offsets =>
    match offsets[place]? with
    | some place => .ok place
    | none => .error .outOfRange

/-- The source from the first token to the last, both included. -/
def cut (src : TokenText) (first last : Int) : Except SpanFault WideString := do
  if last < first then return ""
  let start ← src.offset first
  let lastStart ← src.offset last
  let length := (← src.token last).text.length
  let lo ← src.sourcePlace start
  let hi ← src.sourcePlace (lastStart + length)
  return ⟨(src.source.drop lo).take (hi - lo)⟩

/-! ### Brackets -/

/-- The kinds of brackets. -/
def brackets : List (String × String) := [("(", ")"), ("\x7b", "\x7d"), ("[", "]")]

/-- Whether a token text opens a bracket. -/
def isOpener (value : String) : Bool := (brackets.map Prod.fst).contains value

/-- Whether a token text closes a bracket. -/
def isCloser (value : String) : Bool := (brackets.map Prod.snd).contains value

/-- The index of the first token with this text, from `start` on. -/
def find (src : TokenText) (start : Int) (value : String) : Except SpanFault Int := do
  match (← src.tokensFrom start).findIdx? (·.text == .ofString value) with
  | some distance => return start + distance
  | none => throw (.notFound value start)

/-- The index of the token that brings the depth of one kind of bracket to zero, the first token
having index `i`. -/
def closingFrom (opener closer : String) (depth : Nat) (i : Int) : List Token → Option Int
  | [] => none
  | token :: rest =>
    if token.value = opener then closingFrom opener closer (depth + 1) (i + 1) rest
    else if token.value = closer then
      if depth = 1 then some i else closingFrom opener closer (depth - 1) (i + 1) rest
    else closingFrom opener closer depth (i + 1) rest

/-- The partner of an opening bracket, counting brackets of its own kind only. -/
def closing (src : TokenText) (i : Int) : Except SpanFault Int := do
  let token ← src.token i
  match brackets.lookup token.value with
  | none => throw (.noBracket token.text)
  | some closer =>
    match closingFrom token.value closer 0 i (← src.tokensFrom i) with
    | some partner => return partner
    | none => throw (.unbalanced token.value token.position)

/-! ### Declarations -/

/-- Steps back over the modifiers that end just before a token. -/
def backOverModifiers (src : TokenText) : Nat → Except SpanFault Nat
  | 0 => .ok 0
  | i + 1 => do
    if (← src.token i).cls = .modifier then src.backOverModifiers i else return i + 1

/-- Where a declaration starts that is anchored behind its modifiers and annotations. -/
def declarationStart (src : TokenText) (anchor : Int) (annotations : List (Option Position)) :
    Except SpanFault Int := do
  let starts ← annotations.mapM (src.indexOf "Annotation")
  let first := starts.foldl min anchor
  if 0 ≤ first then return ← src.backOverModifiers first.toNat
  else return first

/-- The index of the last token; below zero, if there is none. -/
def last (src : TokenText) : Int := src.size - 1

/-- The index of the brace that opens the body of a declaration, or of the semicolon that ends it,
whichever comes first outside parentheses and square brackets; and whether it is the brace. -/
def bodyOrEndFrom (depth i : Int) : List Token → Option (Int × Bool)
  | [] => none
  | token :: rest =>
    if token.value = "(" || token.value = "[" then bodyOrEndFrom (depth + 1) (i + 1) rest
    else if token.value = ")" || token.value = "]" then bodyOrEndFrom (depth - 1) (i + 1) rest
    else if depth = 0 && token.value = "\x7b" then some (i, true)
    else if depth = 0 && token.value = ";" then some (i, false)
    else bodyOrEndFrom depth (i + 1) rest

/-- Where a declaration ends: at the brace that closes its body, or at its semicolon; at the last
token, if neither is found. -/
def declarationEnd (src : TokenText) (anchor : Int) : Except SpanFault Int := do
  match bodyOrEndFrom 0 anchor (← src.tokensFrom anchor) with
  | none => return src.last
  | some (brace, true) => src.closing brace
  | some (semicolon, false) => return semicolon

/-- The index of the first semicolon outside brackets, the first token having index `i`. -/
def semicolonFrom (depth i : Int) : List Token → Option Int
  | [] => none
  | token :: rest =>
    if isOpener token.value then semicolonFrom (depth + 1) (i + 1) rest
    else if isCloser token.value then semicolonFrom (depth - 1) (i + 1) rest
    else if depth = 0 && token.value = ";" then some i
    else semicolonFrom depth (i + 1) rest

/-- Where a statement ends: at its semicolon, or at the last token, if none is found. -/
def statementEnd (src : TokenText) (anchor : Int) : Except SpanFault Int := do
  return (semicolonFrom 0 anchor (← src.tokensFrom anchor)).getD src.last

end TokenText

end SourceDoc
