import SourceDoc.Proofs.Comment.Blocks
import SourceDoc.Proofs.Model.Checks
import SourceDoc.Report.Outcome

/-!
# What comes of a unit

A unit gives a model, unless it lacks the declaration that it is about (`SourceUnit.Missing`), that
declaration is no type, a method of it has two parameters of one name, or it has neither a name nor a
package.  These are the only ways to leave a unit out, and which of them applies first is told as the
reason (`extractUnit_decided`).
-/

namespace SourceDoc

/-! ### The declaration that a unit is about -/

/-- A declaration is the first of some that has a property. -/
def IsFirst (p : SourceNode → Prop) (ds : List SourceNode) (d : SourceNode) : Prop :=
  ∃ before after, ds = before ++ d :: after ∧ p d ∧ ∀ e ∈ before, ¬ p e

theorem find?_eq_some_iff_isFirst {p : SourceNode → Prop} {test : SourceNode → Bool}
    (htest : ∀ d, test d = true ↔ p d) {ds : List SourceNode} {d : SourceNode} :
    ds.find? test = some d ↔ IsFirst p ds d := by
  simp only [List.find?_eq_some_iff_append, IsFirst, htest, Bool.not_eq_true', ← Bool.not_eq_true]
  constructor
  · rintro ⟨hd, before, after, hds, hbefore⟩
    exact ⟨before, after, hds, hd, hbefore⟩
  · rintro ⟨before, after, hds, hd, hbefore⟩
    exact ⟨hd, before, after, hds, hbefore⟩

namespace SourceUnit

/-- The name of the declaration that a unit is about is known. -/
def Named (unit : SourceUnit) (name : String) : Prop :=
  unit.primaryName = some name ∧ name ≠ ""

/-- The declaration that a unit is about: the first of the known name; if no name is known the first
that is public, or the first of all if none is public. -/
inductive Primary (unit : SourceUnit) (d : SourceNode) : Prop where
  | named {name : String} (hname : unit.Named name)
      (h : IsFirst (·.name = name) unit.declarations d)
  | exposed (hname : ∀ name, ¬ unit.Named name)
      (h : IsFirst ("public" ∈ ·.modifiers) unit.declarations d)
  | first (hname : ∀ name, ¬ unit.Named name)
      (hnone : ∀ e ∈ unit.declarations, "public" ∉ e.modifiers)
      (h : unit.declarations.head? = some d)

/-- The declaration that a unit is about is missing: the unit has no declarations, or none of the known
name. -/
def Missing (unit : SourceUnit) : Prop :=
  unit.declarations = [] ∨ ∃ name, unit.Named name ∧ ∀ e ∈ unit.declarations, e.name ≠ name

theorem named_iff {unit : SourceUnit} {name : String} :
    unit.Named name ↔ unit.primaryName.filter (!·.isEmpty) = some name := by
  rw [Option.filter_eq_some_iff, Bool.not_eq_true', Named, ← Bool.not_eq_true, String.isEmpty_iff]

theorem find?_zipIdx (test : SourceNode → Bool) (ds : List SourceNode) :
    (ds.zipIdx.find? (fun found => test found.1)).map (·.1) = ds.find? test := by
  conv_rhs => rw [← List.zipIdx_map_fst 0 ds]
  exact List.find?_map.symm

theorem not_named_iff {unit : SourceUnit} :
    (∀ name, ¬ unit.Named name) ↔ unit.primaryName.filter (!·.isEmpty) = none := by
  rw [Option.eq_none_iff_forall_ne_some]
  exact forall_congr' fun name => not_congr named_iff

/-- With a known name, the first declaration of that name is chosen. -/
theorem chosen_of_named {unit : SourceUnit} {name : String} (hname : unit.Named name) :
    (∀ d, unit.declarations.find? (·.name == name) = some d → ∃ i, unit.chosen = .ok (d, i)) ∧
      (unit.declarations.find? (·.name == name) = none →
        ∃ detail, unit.chosen = .error ⟨.noDeclaration, detail⟩) := by
  rw [named_iff] at hname
  rw [← find?_zipIdx, chosen, hname]
  cases unit.declarations.zipIdx with
  | nil => exact ⟨nofun, fun _ => ⟨_, rfl⟩⟩
  | cons first rest =>
    cases hfound : (first :: rest).find? (·.1.name == name) with
    | none => exact ⟨nofun, fun _ => ⟨_, by simp only [hfound]; rfl⟩⟩
    | some found =>
      refine ⟨?_, nofun⟩
      rintro d ⟨⟩
      exact ⟨found.2, by simp only [hfound]⟩

/-- Without a known name, the first public declaration is chosen, or else the first. -/
theorem chosen_of_not_named {unit : SourceUnit} (hname : ∀ name, ¬ unit.Named name) :
    (∀ d, (unit.declarations.find? (·.modifiers.contains "public")).or unit.declarations.head? =
      some d → ∃ i, unit.chosen = .ok (d, i)) ∧
      (unit.declarations = [] → ∃ detail, unit.chosen = .error ⟨.noDeclaration, detail⟩) := by
  rw [not_named_iff] at hname
  have hhead : unit.declarations.head? = unit.declarations.zipIdx.head?.map (·.1) := by
    rw [← List.head?_map, List.zipIdx_map_fst]
  have hempty : unit.declarations = [] ↔ unit.declarations.zipIdx = [] := List.zipIdx_eq_nil_iff.symm
  rw [← find?_zipIdx, hhead, hempty, chosen, hname]
  cases unit.declarations.zipIdx with
  | nil => exact ⟨nofun, fun _ => ⟨_, rfl⟩⟩
  | cons first rest =>
    refine ⟨fun d hd => ?_, nofun⟩
    cases hfound : (first :: rest).find? (·.1.modifiers.contains "public") with
    | none =>
      rw [hfound] at hd
      exact ⟨first.2, by rw [← Option.some.inj hd]; rfl⟩
    | some found =>
      rw [hfound] at hd
      exact ⟨found.2, by rw [← Option.some.inj hd]; rfl⟩

/-- **The declaration that a unit is about is chosen.** -/
theorem exists_chosen_of_primary {unit : SourceUnit} {d : SourceNode} (h : unit.Primary d) :
    ∃ i, unit.chosen = .ok (d, i) := by
  cases h with
  | named hname h =>
    exact (chosen_of_named hname).1 d ((find?_eq_some_iff_isFirst fun _ => beq_iff_eq).2 h)
  | exposed hname h =>
    refine (chosen_of_not_named hname).1 d ?_
    rw [(find?_eq_some_iff_isFirst fun _ => List.contains_iff_mem).2 h]
    rfl
  | first hname hnone h =>
    refine (chosen_of_not_named hname).1 d ?_
    rw [List.find?_eq_none.2 fun e he hpublic => hnone e he (List.contains_iff_mem.1 hpublic)]
    exact h

theorem chosen_of_missing {unit : SourceUnit} (h : unit.Missing) :
    ∃ detail, unit.chosen = .error ⟨.noDeclaration, detail⟩ := by
  have hnamed : ∀ name, unit.Named name → (∀ e ∈ unit.declarations, e.name ≠ name) →
      ∃ detail, unit.chosen = .error ⟨.noDeclaration, detail⟩ := fun name hname hnone =>
    (chosen_of_named hname).2 (List.find?_eq_none.2 fun e he h => hnone e he (beq_iff_eq.1 h))
  rcases h with hempty | ⟨name, hname, hnone⟩
  · by_cases hname : ∃ name, unit.Named name
    · obtain ⟨name, hname⟩ := hname
      exact hnamed name hname (by rw [hempty]; nofun)
    · exact (chosen_of_not_named (not_exists.1 hname)).2 hempty
  · exact hnamed name hname hnone

/-- A unit is about a declaration, if that is not missing. -/
theorem exists_primary_of_not_missing {unit : SourceUnit} (h : ¬ unit.Missing) :
    ∃ d, unit.Primary d := by
  obtain ⟨hne, hall⟩ := not_or.1 h
  by_cases hname : ∃ name, unit.Named name
  · obtain ⟨name, hname⟩ := hname
    cases hfound : unit.declarations.find? (·.name == name) with
    | some d => exact ⟨d, .named hname ((find?_eq_some_iff_isFirst fun _ => beq_iff_eq).1 hfound)⟩
    | none =>
      refine absurd ⟨name, hname, fun e he hname => ?_⟩ hall
      exact List.find?_eq_none.1 hfound e he (beq_iff_eq.2 hname)
  · have hname := not_exists.1 hname
    cases hfound : unit.declarations.find? (·.modifiers.contains "public") with
    | some d =>
      exact ⟨d, .exposed hname ((find?_eq_some_iff_isFirst fun _ => List.contains_iff_mem).1 hfound)⟩
    | none =>
      refine ⟨unit.declarations.head hne, .first hname (fun e he hpublic => ?_)
        (List.head?_eq_some_head hne)⟩
      exact List.find?_eq_none.1 hfound e he (List.contains_iff_mem.2 hpublic)

theorem Primary.unique {unit : SourceUnit} {d e : SourceNode} (hd : unit.Primary d)
    (he : unit.Primary e) : e = d := by
  obtain ⟨i, hi⟩ := exists_chosen_of_primary hd
  obtain ⟨j, hj⟩ := exists_chosen_of_primary he
  exact congrArg Prod.fst (Except.ok.inj (hj.symm.trans hi))

theorem Primary.not_missing {unit : SourceUnit} {d : SourceNode} (h : unit.Primary d) :
    ¬ unit.Missing := by
  intro hmissing
  obtain ⟨i, hi⟩ := exists_chosen_of_primary h
  obtain ⟨detail, hdetail⟩ := chosen_of_missing hmissing
  rw [hi] at hdetail
  cases hdetail

theorem select_eq_ok_iff {unit : SourceUnit} {d : SourceNode} {i : Nat} {kind : DeclarationKind} :
    unit.select = .ok (d, i, kind) ↔ unit.chosen = .ok (d, i) ∧ d.kind = .type kind := by
  constructor
  · intro h
    obtain ⟨⟨node, index⟩, hchosen, h⟩ := Except.bind_eq_ok h
    simp only at h
    split at h
    · cases h
      exact ⟨hchosen, ‹_›⟩
    · cases h
  · rintro ⟨hchosen, hkind⟩
    rw [select, hchosen]
    simp only [bind, Except.bind, hkind]
    rfl

end SourceUnit

/-! ### The result -/

/-- The reason why a unit is left out. -/
def UnitResult.reason? (result : UnitResult) : Option SkipReason := result.skip?.map (·.reason)

/-- A declaration is a type. -/
def SourceNode.IsType (d : SourceNode) : Prop := ∃ kind, d.kind = .type kind

/-- Neither the declaration nor its unit has a name. -/
def SourceUnit.Nameless (unit : SourceUnit) (d : SourceNode) : Prop := d.name = "" ∧ unit.package = ""

/-- What can come of building the model of a unit, and when. -/
inductive Built (unit : SourceUnit) : Except BuildFault UnitModel → Prop where
  | missing (h : unit.Missing) (detail : WideString) :
      Built unit (.error (.skipped ⟨.noDeclaration, detail⟩))
  | untyped {d : SourceNode} (hd : unit.Primary d) (htype : ¬ d.IsType) (detail : WideString) :
      Built unit (.error (.skipped ⟨.unsupportedKind, detail⟩))
  | clash {d : SourceNode} (hd : unit.Primary d) (htype : d.IsType) (h : d.Clashes)
      (parameter method : String) : Built unit (.error (.invalid (.duplicateParameter parameter method)))
  | nameless {d : SourceNode} (hd : unit.Primary d) (htype : d.IsType) (h : unit.Nameless d) :
      Built unit (.error (.invalid .emptyName))
  | model {d : SourceNode} (hd : unit.Primary d) (htype : d.IsType) (hclear : ¬ d.Clashes)
      (hname : ¬ unit.Nameless d) (model : UnitModel) : Built unit (.ok model)

/-- A type that is chosen goes through the checks of its methods and of its name. -/
theorem built_of_type {unit : SourceUnit} {d : SourceNode} {i : Nat} {kind : DeclarationKind}
    (hd : unit.Primary d) (hchosen : unit.chosen = .ok (d, i)) (hkind : d.kind = .type kind) :
    Built unit (UnitModel.ofUnit unit) := by
  rw [UnitModel.ofUnit, SourceUnit.select_eq_ok_iff.2 ⟨hchosen, hkind⟩]
  rcases extractMethods_spec d with ⟨hclear, methods, hmethods⟩ | ⟨hclash, parameter, method, hfault⟩
  · simp only [Except.mapError, bind, Except.bind, hmethods, validate_assemble]
    by_cases hname : d.name = "" ∧ unit.package = ""
    · rw [if_pos hname]
      exact .nameless hd ⟨kind, hkind⟩ hname
    · rw [if_neg hname]
      exact .model hd ⟨kind, hkind⟩ hclear hname _
  · simp only [Except.mapError, bind, Except.bind, hfault]
    exact .clash hd ⟨kind, hkind⟩ hclash parameter method

/-- **Building the model of a unit fails only in the ways told.** -/
theorem built_ofUnit (unit : SourceUnit) : Built unit (UnitModel.ofUnit unit) := by
  by_cases hmissing : unit.Missing
  · obtain ⟨detail, hchosen⟩ := SourceUnit.chosen_of_missing hmissing
    rw [UnitModel.ofUnit, SourceUnit.select, hchosen]
    exact .missing hmissing detail
  obtain ⟨d, hd⟩ := SourceUnit.exists_primary_of_not_missing hmissing
  obtain ⟨i, hchosen⟩ := SourceUnit.exists_chosen_of_primary hd
  by_cases htype : d.IsType
  · obtain ⟨kind, hkind⟩ := htype
    exact built_of_type hd hchosen hkind
  · have hselect : ∃ detail, unit.select = .error ⟨.unsupportedKind, detail⟩ := by
      rw [SourceUnit.select, hchosen]
      simp only [bind, Except.bind]
      split
      · exact absurd ⟨_, ‹_›⟩ htype
      · exact ⟨_, rfl⟩
    obtain ⟨detail, hselect⟩ := hselect
    rw [UnitModel.ofUnit, hselect]
    exact .untyped hd htype detail

/-- **The result of a unit is decided by its declarations.**  It has either a model or a reason.  The
unit is left out if the declaration that it is about is missing; or if that declaration, of which there
is one only, is no type, or has a method with two parameters of one name, or neither a name nor a
package.  Otherwise it has a model.  No other check of a record fails, and the tag of every block of a
comment can be read. -/
theorem extractUnit_decided (unit : SourceUnit) :
    (extractUnit (.unit unit)).unit = unit.path ∧
    ((extractUnit (.unit unit)).model? = none ↔ (extractUnit (.unit unit)).skip? ≠ none) ∧
    ((extractUnit (.unit unit)).reason? = some .noDeclaration ↔ unit.Missing) ∧
    (¬ unit.Missing → ∃ d, unit.Primary d ∧ (∀ e, unit.Primary e → e = d) ∧
      ((extractUnit (.unit unit)).reason? = some .unsupportedKind ↔ ¬ d.IsType) ∧
      ((extractUnit (.unit unit)).reason? = some .internalError ↔
        d.IsType ∧ (d.Clashes ∨ unit.Nameless d)) ∧
      ((extractUnit (.unit unit)).model? ≠ none ↔
        d.IsType ∧ ¬ d.Clashes ∧ ¬ unit.Nameless d)) ∧
    (∀ fault, UnitModel.ofUnit unit = .error (.invalid fault) →
      fault = .emptyName ∨ ∃ parameter method, fault = .duplicateParameter parameter method) ∧
    (∀ raw : WideString, ∀ block ∈ (DocComment.groupLines (DocComment.cleanLines
      (DocComment.stripDelimiters raw.toList))).2, DocComment.splitTag? (Text.joinLines block) ≠ none) := by
  have hbuilt := built_ofUnit unit
  simp only [extractUnit, extractLogged]
  generalize UnitModel.ofUnit unit = built at hbuilt
  refine ⟨?_, ?_, ?_, fun hmissing => ?_, ?_, fun raw block hblock => DocComment.splitTag?_block hblock⟩
  · cases hbuilt <;> rfl
  · cases hbuilt with
    | model hd htype hclear hname model => exact iff_of_false nofun fun h => h rfl
    | missing h detail => exact iff_of_true rfl nofun
    | untyped hd htype detail => exact iff_of_true rfl nofun
    | clash hd htype h parameter method => exact iff_of_true rfl nofun
    | nameless hd htype h => exact iff_of_true rfl nofun
  · cases hbuilt with
    | missing h detail => exact iff_of_true rfl h
    | untyped hd htype detail => exact iff_of_false nofun hd.not_missing
    | clash hd htype h parameter method => exact iff_of_false nofun hd.not_missing
    | nameless hd htype h => exact iff_of_false nofun hd.not_missing
    | model hd htype hclear hname model => exact iff_of_false nofun hd.not_missing
  · cases hbuilt with
    | missing h detail => exact absurd h hmissing
    | untyped hd htype detail =>
      exact ⟨_, hd, fun _ he => hd.unique he, iff_of_true rfl htype,
        iff_of_false nofun fun h => htype h.1, iff_of_false (fun h => h rfl) fun h => htype h.1⟩
    | clash hd htype h parameter method =>
      exact ⟨_, hd, fun _ he => hd.unique he, iff_of_false nofun fun h => h htype,
        iff_of_true rfl ⟨htype, .inl h⟩, iff_of_false (fun h => h rfl) fun h' => h'.2.1 h⟩
    | nameless hd htype h =>
      exact ⟨_, hd, fun _ he => hd.unique he, iff_of_false nofun fun h => h htype,
        iff_of_true rfl ⟨htype, .inr h⟩, iff_of_false (fun h => h rfl) fun h' => h'.2.2 h⟩
    | model hd htype hclear hname model =>
      exact ⟨_, hd, fun _ he => hd.unique he, iff_of_false nofun fun h => h htype,
        iff_of_false nofun fun h => h.2.elim hclear hname, iff_of_true nofun ⟨htype, hclear, hname⟩⟩
  · rintro fault rfl
    cases hbuilt with
    | clash hd htype h parameter method => exact .inr ⟨parameter, method, rfl⟩
    | nameless hd htype h => exact .inl rfl

end SourceDoc
