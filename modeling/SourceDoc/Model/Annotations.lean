import SourceDoc.NameMap
import SourceDoc.Node.Basic

/-!
# Annotations in models

A model maps the name of each annotation to its value; of several annotations with one name the last
counts.
-/

namespace SourceDoc

/-- The value of an annotation: the named values, the value without a name, or nothing. -/
def AnnotationNode.valueText (a : AnnotationNode) : WideString :=
  if a.pairs.isEmpty then a.value.getD ""
  else .intercalate ", " (a.pairs.map fun pair => pair.1 ++ "=" ++ pair.2)

/-- The annotations and their values. -/
def annotationMap (annotations : List AnnotationNode) : NameMap String WideString :=
  NameMap.ofEntries (annotations.map fun a => (a.name, a.valueText))

end SourceDoc
