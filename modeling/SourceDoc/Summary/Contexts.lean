import SourceDoc.Summary.Aggregates

/-!
# Facts for writing documentation

For each page of a project's documentation, the facts that its writer needs.
-/

namespace SourceDoc.Summary

/-- The facts for the overview of a project. -/
structure Overview where
  /-- The name of the repository. -/
  repositoryName : String
  /-- How many units there are. -/
  totalClasses : Nat
  /-- How many classes there are. -/
  classCount : Nat
  /-- How many interfaces there are. -/
  interfaceCount : Nat
  /-- How many enums there are. -/
  enumCount : Nat
  /-- One line for each unit. -/
  classSummary : WideString
  deriving DecidableEq, Repr

/-- The overview of a project. -/
def overview (units : List UnitModel) (repositoryName : String) : Overview where
  repositoryName
  totalClasses := units.length
  classCount := kindCount units .classType
  interfaceCount := kindCount units .interfaceType
  enumCount := kindCount units .enumType
  classSummary := classList units

/-- The facts for the page of a unit. -/
structure ClassContext where
  /-- The name of the unit. -/
  className : String
  /-- The package of the unit. -/
  packageName : String
  /-- The kind of the unit. -/
  classType : DeclarationKind
  /-- The description of the unit, empty if there is none. -/
  classDescription : WideString
  /-- The declaration as written. -/
  sourceCode : WideString
  /-- One line for each method. -/
  methodsSummary : String
  deriving DecidableEq, Repr

/-- The page of a unit. -/
def classContext (unit : UnitModel) : ClassContext where
  className := unit.name
  packageName := unit.package
  classType := unit.kind
  classDescription := unit.description.getD ""
  sourceCode := unit.sourceCode
  methodsSummary := methodsSummary unit

/-- The facts for the introduction to a project. -/
structure GettingStarted where
  /-- The name of the repository. -/
  repositoryName : String
  /-- The public units, one on a line. -/
  mainClasses : String
  deriving DecidableEq, Repr

/-- The introduction to a project. -/
def gettingStarted (units : List UnitModel) (repositoryName : String) : GettingStarted where
  repositoryName
  mainClasses := "\n".intercalate (publicTypes units)

/-- The facts for the questions and answers about a project. -/
structure Faq where
  /-- The name of the repository. -/
  repositoryName : String
  /-- What may be thrown, one on a line. -/
  exceptionTypes : WideString
  deriving DecidableEq, Repr

/-- The questions and answers about a project. -/
def faq (units : List UnitModel) (repositoryName : String) : Faq where
  repositoryName
  exceptionTypes := .intercalate "\n" (exceptionTypes units)

end SourceDoc.Summary
