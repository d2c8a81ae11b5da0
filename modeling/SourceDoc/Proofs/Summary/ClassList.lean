import SourceDoc.Proofs.Text.OneLine
import SourceDoc.Proofs.Tree.TypeTexts
import SourceDoc.Summary.Aggregates

/-!
# The list of units

The list of units has one line for each of them.  A description may have any number of lines, and none
of its line feeds gets into the list, because only its words do (`feed_notMem_unitLine`).  So the list
falls at its line feeds into the lines of the units (`lines_classList`).
-/

namespace SourceDoc.Summary

open SourceDoc.Text

/-- The line that tells a unit: its name, its kind in brackets, and behind a colon the words of its
description, if it has one. -/
def toldLine (unit : UnitModel) : List WideChar :=
  let heading := unit.fullyQualifiedName ++ " (" ++ unit.kind.name ++ ")"
  match unit.description with
  | none => heading.toList.map .char
  | some description =>
    (heading ++ ": ").toList.map .char ++ [.char ' '].intercalate (words description.toList)

theorem toList_oneLineText (text : WideString) :
    (oneLineText (some text)).toList = [.char ' '].intercalate (words text.toList) :=
  oneLine_eq_intercalate text.toList

theorem toList_unitLine (unit : UnitModel) : (unitLine unit).toList = toldLine unit := by
  have happend : ∀ a b : WideString, (a ++ b).toList = a.toList ++ b.toList := fun _ _ => rfl
  unfold unitLine toldLine
  cases unit.description <;> simp [happend, toList_oneLineText, WideString.ofString]

/-- The line of a unit has no line feed, unless the name of the unit has one. -/
theorem feed_notMem_unitLine {unit : UnitModel} (h : '\n' ∉ unit.fullyQualifiedName.toList) :
    WideChar.char '\n' ∉ (unitLine unit).toList := by
  have hkind : '\n' ∉ unit.kind.name.toList := by
    cases unit.kind <;> simp [DeclarationKind.name]
  rw [toList_unitLine]
  unfold toldLine
  split
  · simp [h, hkind]
  · rename_i description _
    -- A line feed is blank, so no word has one, and words are joined by spaces.
    have hwords : ∀ c ∈ [WideChar.char ' '].intercalate (words description.toList), c ≠ .char '\n' := by
      apply forall_mem_intercalate
      · simp
      · rintro word hword c hc rfl
        exact absurd ((isInk_of_mem_words hword).not_blank _ hc) (by decide)
    have hfeed : WideChar.char '\n' ∉ [WideChar.char ' '].intercalate (words description.toList) :=
      fun hmem => hwords _ hmem rfl
    simp [h, hkind, hfeed]

/-- **The list of units has one line for each unit, in order.**  The line of a unit is its name with its
kind, followed by the words of its description with single spaces between them, whatever the description
is; a unit without description has the name and the kind only.  Every text is put on one line in this
way, and nothing changes if it is done again. -/
theorem lines_classList :
    (∀ units : List UnitModel, units ≠ [] →
      (∀ unit ∈ units, '\n' ∉ unit.fullyQualifiedName.toList) →
        (classList units).toList.splitOn (.char '\n') = units.map toldLine) ∧
    (∀ text : WideString,
      (oneLineText (some text)).toList = [.char ' '].intercalate (words text.toList)) ∧
    ∀ text : Option WideString, oneLineText (some (oneLineText text)) = oneLineText text := by
  refine ⟨fun units hne hnames => ?_, toList_oneLineText, fun text => ?_⟩
  · have hlines : ((units.map unitLine).map WideString.toList) = units.map toldLine := by
      simp [toList_unitLine]
    have hfeed : ∀ line ∈ units.map toldLine, WideChar.char '\n' ∉ line := by
      rw [← hlines]
      simp only [List.map_map, List.mem_map, Function.comp_apply]
      rintro line ⟨unit, hunit, rfl⟩
      exact feed_notMem_unitLine (hnames unit hunit)
    show ([WideChar.char '\n'].intercalate ((units.map unitLine).map WideString.toList)).splitOn _ = _
    rw [hlines]
    exact List.splitOn_intercalate _ hfeed (by simpa using hne)
  · exact congrArg WideString.ofList (oneLine_oneLine _)

/-- A class with a description of several lines, an interface without description, and an enum with a
blank one. -/
def listedUnits : List UnitModel :=
  [{ name := "Foo", package := "com.example", fullyQualifiedName := "com.example.Foo",
     kind := .classType, description := some "\tDoes\r\n\n   foo things.\n" },
   { name := "Api", package := "", fullyQualifiedName := "Api", kind := .interfaceType },
   { name := "Color", package := "", fullyQualifiedName := "Color", kind := .enumType,
     description := some " \n " }]

/-- Three units have three lines. -/
theorem lines_classList_listedUnits :
    (classList listedUnits).toList.splitOn (.char '\n') =
      ["com.example.Foo (CLASS): Does foo things.", "Api (INTERFACE)", "Color (ENUM): "].map
        fun line => line.toList.map .char :=
  (lines_classList.1 listedUnits (by simp [listedUnits]) (by simp [listedUnits])).trans (by decide)

end SourceDoc.Summary
