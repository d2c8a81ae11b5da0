import SourceDoc.Comment.DocComment
import SourceDoc.Model.Annotations
import SourceDoc.Model.Basic

/-!
# Fields of a declaration

A field declaration gives one model for each of its variables; they share modifiers, annotations and
description.
-/

namespace SourceDoc

/-- A text, unless it is missing or empty. -/
def givenText (text : Option String) : Option String := text.filter (!·.isEmpty)

/-- The description of a node: that of its comment, if it has one. -/
def SourceNode.doc (node : SourceNode) : Option DocComment := node.comment.map DocComment.read

/-- The models of the variables of a field declaration. -/
def fieldModels (field : SourceNode) : List FieldModel :=
  (field.childrenOf .variable).map fun var =>
    { name := var.name
      typeName := ((givenText var.typeText).or field.typeText).getD ""
      description := field.doc.map (·.description)
      isPublic := field.modifiers.contains "public"
      isStatic := field.modifiers.contains "static"
      isFinal := field.modifiers.contains "final"
      initialValue := var.initializer
      annotations := annotationMap field.annotations }

/-- The models of the fields of a declaration, in order. -/
def extractFields (declaration : SourceNode) : List FieldModel :=
  (declaration.childrenOf .field).flatMap fieldModels

end SourceDoc
