import SourceDoc.Model.Basic
import SourceDoc.Text.Blank

/-!
# What many models have in common

Lists and counts over the models of a project.
-/

namespace SourceDoc.Summary

open SourceDoc.Text

/-- A text on one line; a missing text is empty. -/
def oneLineText (text : Option WideString) : WideString :=
  ⟨oneLine (text.getD "").toList⟩

/-- The line of a unit: its name, its kind and its description, if it has one. -/
def unitLine (unit : UnitModel) : WideString :=
  unit.fullyQualifiedName ++ " (" ++ unit.kind.name ++ ")" ++
    match unit.description with
    | none => ""
    | some description => ": " ++ oneLineText (some description)

/-- One line for each unit. -/
def classList (units : List UnitModel) : WideString :=
  .intercalate "\n" (units.map unitLine)

/-- How many units are of a kind. -/
def kindCount (units : List UnitModel) (kind : DeclarationKind) : Nat :=
  units.countP (·.kind == kind)

/-- How many units there are of each kind. -/
def kindCounts (units : List UnitModel) : List (DeclarationKind × Nat) :=
  DeclarationKind.all.map fun kind => (kind, kindCount units kind)

/-- The names of the public units. -/
def publicTypes (units : List UnitModel) : List String :=
  (units.filter (·.isPublic)).map (·.fullyQualifiedName)

/-- The names that follow those already seen, each once, at its first occurrence. -/
def newNames (seen : List WideString) : List WideString → List WideString
  | [] => []
  | name :: rest =>
    if seen.contains name then newNames seen rest else name :: newNames (name :: seen) rest

/-- What the methods of the units may throw, each once, in the order of first occurrence. -/
def exceptionTypes (units : List UnitModel) : List WideString :=
  newNames [] (units.flatMap fun unit => unit.methods.flatMap (·.exceptions))

/-- The line of a method. -/
def methodLine (method : MethodModel) : String :=
  method.name ++ "(" ++
    ", ".intercalate (method.parameters.map fun p => p.typeName ++ " " ++ p.name) ++ "): " ++
    method.returnType

/-- One line for each method of a unit. -/
def methodsSummary (unit : UnitModel) : String :=
  "\n".intercalate (unit.methods.map methodLine)

end SourceDoc.Summary
