import SourceDoc.Grammar.Unit
import SourceDoc.Node.OfTree
import SourceDoc.Text.PathName
import SourceDoc.Token.Lexer

/-!
# Source units from Java sources

A source is cut into tokens, parsed and turned into a source unit.  A source that cannot be parsed
gives a failure with a message; a range of tokens that cannot be found is no fault of the source and
is handed on (`SpanFault`).
-/

namespace SourceDoc

open SourceDoc.Text

/-- The message of a source that does not fall into tokens. -/
def tokenFailure (fault : Token.SourceFault) : WideString :=
  let diagnosis := fault.diagnosis
  if diagnosis.family = .lexical then "Java lexer error: " ++ diagnosis.message
  else "Failed to parse Java code: " ++ diagnosis.text

/-- The tokens and the syntax tree of a source, or the message of why there is none. -/
def parseTree (code : WideString) : Except WideString (TokenText × Tree.CompilationUnit) :=
  match Token.ofSource code.toList with
  | .error fault => .error (tokenFailure fault)
  | .ok (data, tokens) =>
    match Grammar.parseUnit tokens.toArray with
    | .error reason => .error reason.message
    | .ok tree => .ok (TokenText.ofTokens data tokens (some code.toList), tree)

/-- Why a source gives no unit. -/
inductive UnitFault where
  /-- The source cannot be parsed. -/
  | unparsable (message : WideString)
  /-- The text of a declaration cannot be found. -/
  | span (fault : SpanFault)
  deriving DecidableEq, Repr

/-- A file name, unless it is missing or empty. -/
def givenName (filename : Option String) : Option String :=
  filename.filter (!·.isEmpty)

/-- The unit of a source.  The stem of the file name, if one is given, names the declaration that the
unit is about. -/
def SourceUnit.ofSource (code : WideString) (filename : Option String) :
    Except UnitFault SourceUnit := do
  let (src, tree) ← (parseTree code).mapError UnitFault.unparsable
  let declarations ← (Tree.Declaration.nodes src tree.types).mapError UnitFault.span
  return {
    path := (givenName filename).getD "<string>"
    package := tree.package.getD ""
    declarations
    primaryName := (givenName filename).map fileStem
    text := code }

/-- The language of a file, by its extension. -/
def languageOf? (filename : Option String) : Option String :=
  (givenName filename).bind fun name => if fileExtension name = ".java" then some "java" else none

/-- The message for a file whose extension names no language. -/
def unsupported (filename : String) : String := "Unsupported file type: " ++ filename

/-- Loads a source.  Without a file name it is taken for Java. -/
def Loaded.ofSource (code : WideString) (filename : Option String) : Except SpanFault Loaded :=
  match givenName filename with
  | some name =>
    if (languageOf? filename).isNone then .ok (.failure name (unsupported name)) else read name
  | none => read "<string>"
where
  /-- Reads the source of a supported file. -/
  read (path : String) : Except SpanFault Loaded :=
    match SourceUnit.ofSource code filename with
    | .ok loaded => .ok (.unit loaded)
    | .error (.unparsable message) => .ok (.failure path message)
    | .error (.span fault) => .error fault

end SourceDoc
