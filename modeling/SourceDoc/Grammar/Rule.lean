import SourceDoc.Grammar.Parser

/-!
# The rules of the grammar that refer to each other

The grammar is recursive: types contain types, statements contain classes.  Each rule that closes
such a circle has a name here.  The parsers of the grammar take a parser for these rules as an
argument (`Descend`), and `SourceDoc.Grammar.Unit` ties the knot, one level of nesting at a time.
-/

namespace SourceDoc.Grammar

open SourceDoc.Tree

/-- The rules that are referred to from within what they describe. -/
inductive Rule where
  /-- A chain of names with type arguments. -/
  | reference
  /-- An annotation. -/
  | annotationUse
  /-- A value of an annotation. -/
  | elementValue
  /-- An expression. -/
  | expression
  /-- An expression that is no assignment. -/
  | conditional
  /-- An operand, with its signs and selectors. -/
  | operand
  /-- An initial value: an expression or values in braces. -/
  | initializer
  /-- A block in braces. -/
  | block
  /-- A declaration or a statement in a block. -/
  | blockStatement
  /-- A statement. -/
  | statement
  /-- The body of a type declaration of a kind. -/
  | members (kind : DeclarationKind)
  /-- A type declaration with its modifiers. -/
  | typeDeclaration
  deriving DecidableEq, Repr

/-- What a rule gives; most rules only recognise. -/
abbrev Rule.Result : Rule → Type
  | .reference => List Segment
  | .annotationUse => AnnotationUse
  | .members _ => List Declaration
  | .typeDeclaration => Declaration
  | _ => Unit

/-- Parsers for the rules, used for what is nested. -/
abbrev Descend : Type := (rule : Rule) → Parser rule.Result

end SourceDoc.Grammar
