import SourceDoc.Proofs.Report.Files
import SourceDoc.Proofs.Report.Outcomes
import SourceDoc.Proofs.Text.PathNames

/-!
# The declaration that a file is named for

A source with a file name is loaded only if the name has the extension of a known language.  Such a name
has a stem that is not empty, so the declaration that the unit is about is looked for by that stem
(`chosen_iff_isFirst_of_named`).  The other rule, by which the first public declaration is taken, is for
sources without a file name only (`primary_of_ofSource`).
-/

namespace SourceDoc

open SourceDoc.Text

/-! ### Names of units -/

theorem givenName_of_ne {filename : String} (h : filename ≠ "") :
    givenName (some filename) = some filename := by
  simp [givenName, h]

/-- The declaration that a unit is about has the stem of the file name as its name. -/
theorem SourceUnit.primaryName_of_ofSource {code : WideString} {filename : Option String}
    {unit : SourceUnit} (h : SourceUnit.ofSource code filename = .ok unit) :
    unit.primaryName = (givenName filename).map fileStem := by
  obtain ⟨parsed, -, h⟩ := Except.bind_eq_ok h
  obtain ⟨nodes, -, h⟩ := Except.bind_eq_ok h
  rw [← Except.ok.inj h]

/-- A source with a file name gives a unit only if it is a Java file. -/
theorem Loaded.ofSource_eq_unit {code : WideString} {filename : String} {unit : SourceUnit}
    (hname : filename ≠ "") (h : Loaded.ofSource code (some filename) = .ok (.unit unit)) :
    fileExtension filename = ".java" ∧ SourceUnit.ofSource code (some filename) = .ok unit := by
  unfold Loaded.ofSource languageOf? at h
  simp only [givenName_of_ne hname, Option.bind_some] at h
  by_cases hextension : fileExtension filename = ".java"
  · simp only [hextension, if_true, Option.isNone_some, Bool.false_eq_true, if_false,
      Loaded.ofSource.read] at h
    refine ⟨hextension, ?_⟩
    cases hunit : SourceUnit.ofSource code (some filename) with
    | ok found =>
      rw [hunit] at h
      simp_all
    | error fault =>
      rw [hunit] at h
      cases fault <;> simp at h
  · simp [hextension] at h

/-- A file with the extension of Java has a stem, which is not made of dots only. -/
theorem fileName_of_fileExtension {filename : String} (h : fileExtension filename = ".java") :
    ∃ extension : String, fileName filename.toList = (fileStem filename ++ extension).toList ∧
      lower extension.toList = ".java".toList ∧ ∃ c ∈ (fileStem filename).toList, c ≠ '.' := by
  unfold fileExtension at h
  have hlower : lower (splitExtension filename.toList).2 = ".java".toList := by
    rw [← h, String.toList_ofList]
  have hne : (splitExtension filename.toList).2 ≠ [] := by
    intro hempty
    rw [hempty] at hlower
    simp [lower, lowerAfter] at hlower
  obtain ⟨hwhole, hdots⟩ := fileName_of_extension hne
  refine ⟨String.ofList (splitExtension filename.toList).2, ?_, ?_, ?_⟩
  · rw [fileStem, String.toList_append, String.toList_ofList, String.toList_ofList]
    exact hwhole
  · rw [String.toList_ofList, hlower]
  · rw [fileStem, String.toList_ofList]
    exact hdots

/-! ### The declaration that is chosen -/

/-- **With a known name nothing but the first declaration of that name is chosen.** -/
theorem SourceUnit.chosen_iff_isFirst_of_named {unit : SourceUnit} {name : String}
    (hname : unit.Named name) {d : SourceNode} :
    (∃ i, unit.chosen = .ok (d, i)) ↔ IsFirst (·.name = name) unit.declarations d := by
  constructor
  · rintro ⟨i, hchosen⟩
    have hpresent : ¬ unit.Missing := by
      intro hmissing
      obtain ⟨detail, herror⟩ := chosen_of_missing hmissing
      simp [hchosen] at herror
    obtain ⟨e, he⟩ := exists_primary_of_not_missing hpresent
    obtain ⟨j, hj⟩ := exists_chosen_of_primary he
    have hsame : d = e := by simp_all
    rw [hsame]
    cases he with
    | named hother h =>
      have : _ = name := Option.some.inj (hother.1.symm.trans hname.1)
      rwa [this] at h
    | exposed hnone h => exact absurd hname (hnone name)
    | first hnone hpublic h => exact absurd hname (hnone name)
  · intro h
    exact exists_chosen_of_primary (.named hname h)

/-- A model has the name of the declaration that was chosen. -/
theorem exists_chosen_of_extractUnit {unit : SourceUnit} {model : UnitModel}
    (h : (extractUnit (.unit unit)).outcome = .model model) :
    ∃ d i, unit.chosen = .ok (d, i) ∧ model.name = d.name := by
  obtain ⟨d, i, kind, methods, hselect, -, -, rfl⟩ := exists_of_ofUnit (ofUnit_of_extractUnit h)
  exact ⟨d, i, (SourceUnit.select_eq_ok_iff.1 hselect).1, rfl⟩

/-- **A unit with a file name is about the declaration that the file is named for.**  The last segment of
the path is the name of that declaration and an extension, which is `.java` in either case, and the name
is more than dots.  The first declaration of that name is chosen, if there is one, and no other.  So a
model has the stem of the file as its name, and the path that was given. -/
theorem primary_of_ofSource {code : WideString} {filename : String} {unit : SourceUnit}
    (hname : filename ≠ "") (hunit : Loaded.ofSource code (some filename) = .ok (.unit unit)) :
    ∃ stem extension : String, unit.primaryName = some stem ∧
      (filename.toList.splitOn '/').getLast? = some (stem ++ extension).toList ∧
      lower extension.toList = ".java".toList ∧
      (∃ c ∈ stem.toList, c ≠ '.') ∧
      (∀ d, (∃ i, unit.chosen = .ok (d, i)) ↔ IsFirst (·.name = stem) unit.declarations d) ∧
      ∀ model, (extractUnit (.unit unit)).model? = some model →
        model.name = stem ∧ model.sourcePath = filename := by
  obtain ⟨hextension, hsource⟩ := Loaded.ofSource_eq_unit hname hunit
  obtain ⟨extension, hsegment, hlower, hdots⟩ := fileName_of_fileExtension hextension
  have hprimary : unit.primaryName = some (fileStem filename) := by
    rw [SourceUnit.primaryName_of_ofSource hsource, givenName_of_ne hname]
    rfl
  have hnamed : unit.Named (fileStem filename) := by
    refine ⟨hprimary, ?_⟩
    intro hempty
    simp [hempty] at hdots
  refine ⟨fileStem filename, extension, hprimary, ?_, hlower, hdots, ?_, ?_⟩
  · rw [getLast?_splitOn_eq_fileName, hsegment]
  · intro d
    exact SourceUnit.chosen_iff_isFirst_of_named hnamed
  · intro model hmodel
    rw [UnitResult.model?_eq_some_iff] at hmodel
    obtain ⟨d, i, hchosen, hd⟩ := exists_chosen_of_extractUnit hmodel
    obtain ⟨before, after, -, hstem, -⟩ :=
      (SourceUnit.chosen_iff_isFirst_of_named hnamed).1 ⟨i, hchosen⟩
    rw [hd, sourcePath_of_extractUnit hmodel, SourceUnit.path_of_ofSource hsource,
      givenName_of_ne hname]
    exact ⟨hstem, rfl⟩

/-- In a directory with a dot in its name, a file whose class comes behind a public one. -/
theorem primary_of_ofSource_second :
    ∃ unit, Loaded.ofSource "public class A \x7b\x7d class B \x7b\x7d" (some "lib.d/B.JAVA") =
        .ok (.unit unit) ∧
      unit.primaryName = some "B" ∧
      ∃ model, (extractUnit (.unit unit)).model? = some model ∧ model.name = "B" ∧
        model.sourcePath = "lib.d/B.JAVA" := by
  have hview : (Loaded.ofSource "public class A \x7b\x7d class B \x7b\x7d"
      (some "lib.d/B.JAVA")).toOption.map (fun loaded => (extractUnit loaded).model?.isSome) =
        some true := by
    decide +kernel
  obtain ⟨loaded, hloaded, hsome⟩ := exists_of_toOption_map hview
  cases loaded with
  | failure path message => simp [extractUnit, extractLogged, UnitResult.model?] at hsome
  | unit unit =>
    obtain ⟨model, hmodel⟩ := Option.isSome_iff_exists.1 hsome
    obtain ⟨stem, extension, hprimary, -, -, -, -, hall⟩ := primary_of_ofSource (by simp) hloaded
    obtain ⟨hname, hpath⟩ := hall model hmodel
    have hstem : stem = "B" := by
      have hsource := (Loaded.ofSource_eq_unit (by simp) hloaded).2
      have hfile : fileStem "lib.d/B.JAVA" = "B" := by decide +kernel
      rw [SourceUnit.primaryName_of_ofSource hsource, givenName_of_ne (by simp), Option.map_some,
        hfile] at hprimary
      exact (Option.some.inj hprimary).symm
    rw [hstem] at hprimary hname
    exact ⟨unit, hloaded, hprimary, model, hmodel, hname, hpath⟩

end SourceDoc
