import SourceDoc.Text.WideString

/-!
# Diagnoses

What went wrong, as it is told to the outside: the family the problem belongs to and a message.
Every kind of fault in the library has a function that gives its diagnosis.
-/

namespace SourceDoc

/-- The families of problems, each with a label of its own. -/
inductive Family where
  /-- A value that breaks a rule of its kind. -/
  | value
  /-- Something that was looked for and is not there. -/
  | lookup
  /-- A key that a fixed table does not have. -/
  | key
  /-- A position outside a list or text. -/
  | index
  /-- A missing value where a text is needed. -/
  | type
  /-- A text that does not fall into tokens. -/
  | lexical
  /-- The token list ended too early. -/
  | exhausted
  /-- The nesting is too deep. -/
  | depth
  /-- Bytes that are no text. -/
  | encoding
  /-- Texts or bytes that do not fit an encoding in another way. -/
  | unicode
  /-- A name that is not known. -/
  | attribute
  /-- What a system tells went wrong. -/
  | system
  deriving DecidableEq, Repr

/-- The label of a family, as it appears in messages. -/
def Family.label : Family → String
  | .value => "ValueError"
  | .lookup => "LookupError"
  | .key => "KeyError"
  | .index => "IndexError"
  | .type => "TypeError"
  | .lexical => "LexerError"
  | .exhausted => "StopIteration"
  | .depth => "RecursionError"
  | .encoding => "UnicodeDecodeError"
  | .unicode => "UnicodeError"
  | .attribute => "AttributeError"
  | .system => "OSError"

/-- Whether the family is one of values that break a rule of their kind. -/
def Family.isValue : Family → Bool
  | .value | .encoding | .unicode => true
  | _ => false

/-- A problem as told to the outside. -/
structure Diagnosis where
  /-- The family the problem belongs to. -/
  family : Family
  /-- What happened. -/
  message : WideString
  deriving DecidableEq, Repr

/-- The diagnosis on one line, the label first. -/
def Diagnosis.text (d : Diagnosis) : WideString :=
  d.family.label ++ ": " ++ d.message

/-- A position outside a list. -/
def Diagnosis.listIndex : Diagnosis := ⟨.index, "list index out of range"⟩

/-- A position outside a text. -/
def Diagnosis.textIndex : Diagnosis := ⟨.index, "string index out of range"⟩

/-- A missing character where a character is tested for membership in a text. -/
def Diagnosis.missingText : Diagnosis :=
  ⟨.type, "'in <string>' requires string as left operand, not NoneType"⟩

end SourceDoc
