import SourceDoc.NameMap
import SourceDoc.Text.Blank
import SourceDoc.Text.Lines
import SourceDoc.Text.Word

/-!
# Documentation comments

A documentation comment has a description and block tags.  A line that begins with `@` and a word
opens a block; the lines up to the next such line belong to it.

Lookups follow the rules for describing methods: the first `@return` counts, a parameter is described
by the first `@param` that names it, and of several `@throws` or `@exception` with one name the last
describes it.
-/

namespace SourceDoc

open SourceDoc.Text

/-- A block tag. -/
structure BlockTag where
  /-- The word behind the at sign. -/
  tag : String
  /-- What the tag is about, for tags that name something. -/
  name : Option WideString
  /-- The text of the block. -/
  content : WideString
  deriving DecidableEq, Repr

/-- A documentation comment. -/
structure DocComment where
  /-- The text before the first block tag. -/
  description : WideString
  /-- The block tags, in order. -/
  tags : List BlockTag
  deriving DecidableEq, Repr

namespace DocComment

/-! ### Reading -/

/-- The inside of a comment: the text without the blanks around it, without the delimiter that opens
it and without the one that closes it. -/
def stripDelimiters (raw : List WideChar) : List WideChar :=
  let body := trim raw
  let body :=
    if (WideString.ofString "/**").toList.isPrefixOf body then body.drop 3
    else if (WideString.ofString "/*").toList.isPrefixOf body then body.drop 2
    else body
  if (WideString.ofString "*/").toList.isSuffixOf body then body.take (body.length - 2) else body

/-- A line without the star in front of it, the blank behind the star and the blanks at its end. -/
def cleanLine (line : List WideChar) : List WideChar :=
  match trimLeft line with
  | .char '*' :: .char ' ' :: rest => trimRight rest
  | .char '*' :: .char '\t' :: rest => trimRight rest
  | .char '*' :: rest => trimRight rest
  | _ => trimRight line

/-- The lines of a comment, without the empty ones at both ends. -/
def cleanLines (body : List WideChar) : List (List WideChar) :=
  let lines := (splitLines body).map cleanLine
  (lines.dropWhile List.isEmpty).reverse.dropWhile List.isEmpty |>.reverse

/-- The word of a tag and what follows it, if a text begins with a tag. -/
def splitTag? (text : List WideChar) : Option (List WideChar × List WideChar) :=
  match trimLeft text with
  | .char '@' :: rest =>
    match rest.span (·.satisfies isWordChar) with
    | ([], _) => none
    | (word, rest) => some (word, rest)
  | _ => none

/-- Whether a line opens a block. -/
def opensBlock (line : List WideChar) : Bool := (splitTag? line).isSome

/-- The lines before the first block, and the blocks.  Lines that go on with a block lose the blanks
in front of them. -/
def groupLines : List (List WideChar) → List (List WideChar) × List (List (List WideChar))
  | [] => ([], [])
  | line :: rest =>
    let (lead, blocks) := groupLines rest
    if opensBlock line then ([], (line :: lead.map trimLeft) :: blocks)
    else (line :: lead, blocks)

/-- The tags whose first word is a name. -/
def namedTags : List String := ["param", "throws", "exception"]

/-- The tag of a block. -/
def readTag (block : List WideChar) : BlockTag :=
  let (word, rest) := (splitTag? block).getD ([], [])
  let tag := (WideString.ofList word).toString
  let content := trim rest
  if namedTags.contains tag then
    let (name, content) := splitWord content
    { tag, name := some ⟨name⟩, content := ⟨trim content⟩ }
  else { tag, name := none, content := ⟨content⟩ }

/-- The documentation comment that a text writes. -/
def read (raw : WideString) : DocComment :=
  let (lead, blocks) := groupLines (cleanLines (stripDelimiters raw.toList))
  { description := ⟨trim (joinLines lead)⟩
    tags := blocks.map fun block => readTag (joinLines block) }

/-! ### Lookups -/

/-- The tags of some kinds, in order. -/
def tagsOf (comment : DocComment) (kinds : List String) : List BlockTag :=
  comment.tags.filter fun t => kinds.contains t.tag

/-- The description of the result. -/
def returnDescription (comment : DocComment) : Option WideString :=
  (comment.tagsOf ["return"]).head?.map (·.content)

/-- The description of a parameter. -/
def paramDescription (comment : DocComment) (name : String) : Option WideString :=
  ((comment.tagsOf ["param"]).find? (·.name == some (.ofString name))).map (·.content)

/-- The names of what may be thrown, with every repetition, each with its description. -/
def thrown (comment : DocComment) : List (WideString × WideString) :=
  (comment.tagsOf ["throws", "exception"]).map fun t => (t.name.getD "", t.content)

end DocComment

end SourceDoc
