import SourceDoc.Node.Basic
import SourceDoc.Text.Quoted

/-!
# The declaration that a unit is about

With a known name it is the first declaration of that name; without one the first public
declaration, or else the first.  It has to be a type.
-/

namespace SourceDoc

open SourceDoc.Text

/-- Why a unit is left out. -/
inductive SkipReason where
  /-- The source cannot be loaded or parsed. -/
  | parseError
  /-- The declaration that the unit is about is missing. -/
  | noDeclaration
  /-- The declaration that the unit is about is no type. -/
  | unsupportedKind
  /-- Extraction met a record that is not in order. -/
  | internalError
  deriving DecidableEq, Repr

/-- The label of a reason. -/
def SkipReason.label : SkipReason → String
  | .parseError => "parse_error"
  | .noDeclaration => "no_primary_declaration"
  | .unsupportedKind => "unsupported_declaration_kind"
  | .internalError => "internal_error"

/-- A reason for leaving out a unit, with details. -/
structure Skip where
  /-- The reason. -/
  reason : SkipReason
  /-- The details. -/
  detail : WideString
  deriving DecidableEq, Repr

/-- The reason and the details on one line. -/
def Skip.message (skip : Skip) : WideString :=
  if skip.detail.isEmpty then skip.reason.label else skip.reason.label ++ ": " ++ skip.detail

/-- The declaration that a unit is about, with its index, whatever its kind. -/
def SourceUnit.chosen (unit : SourceUnit) : Except Skip (SourceNode × Nat) :=
  let indexed := unit.declarations.zipIdx
  match indexed with
  | [] => .error ⟨.noDeclaration, "unit has no top-level declarations"⟩
  | first :: _ =>
    match unit.primaryName.filter (!·.isEmpty) with
    | some name =>
      match indexed.find? (·.1.name == name) with
      | some found => .ok found
      | none => .error ⟨.noDeclaration, "no top-level declaration named " ++ quoted name⟩
    | none => .ok ((indexed.find? (·.1.modifiers.contains "public")).getD first)

/-- The name of a node, as shown in messages. -/
def SourceNode.shownName (node : SourceNode) : String :=
  if node.name.isEmpty then "<anonymous>" else node.name

/-- The type declaration that a unit is about, with its index and kind. -/
def SourceUnit.select (unit : SourceUnit) :
    Except Skip (SourceNode × Nat × DeclarationKind) := do
  let (node, index) ← unit.chosen
  match node.kind with
  | .type kind => return (node, index, kind)
  | other =>
    throw ⟨.unsupportedKind, node.shownName ++ " is a " ++ other.label ++
      ", not a type declaration"⟩

end SourceDoc
