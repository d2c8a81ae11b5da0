import SourceDoc.Model.OfUnit
import SourceDoc.Proofs.Except
import SourceDoc.Proofs.NameMap

/-!
# Which checks of the records can fail

Methods and units are checked when their records are made.  Of a method only the names of its
parameters can be out of order (`extractMethod_eq`): its signature is never empty, and it describes
only exceptions that it lists.  Of a unit only the name can be missing (`validate_assemble`), so that a
model tells its unit's declaration part by part (`exists_of_ofUnit`).
-/

namespace SourceDoc

/-! ### Names -/

theorem firstRepeated?_eq_none_iff {seen names : List String} :
    firstRepeated? seen names = none ↔ names.Nodup ∧ ∀ name ∈ names, name ∉ seen := by
  induction names generalizing seen with
  | nil => exact iff_of_true rfl ⟨List.nodup_nil, nofun⟩
  | cons name names ih =>
    rw [firstRepeated?]
    by_cases hseen : name ∈ seen
    · rw [if_pos (List.contains_iff_mem.2 hseen)]
      exact iff_of_false nofun fun h => h.2 name List.mem_cons_self hseen
    · rw [if_neg (fun h => hseen (List.contains_iff_mem.1 h)), ih, List.nodup_cons]
      constructor
      · rintro ⟨hnodup, hfresh⟩
        refine ⟨⟨fun hmem => hfresh name hmem List.mem_cons_self, hnodup⟩, ?_⟩
        intro other hother
        rcases List.mem_cons.1 hother with rfl | hmem
        · exact hseen
        · exact fun h => hfresh other hmem (List.mem_cons_of_mem _ h)
      · rintro ⟨⟨hnot, hnodup⟩, hfresh⟩
        refine ⟨hnodup, fun other hmem h => ?_⟩
        rcases List.mem_cons.1 h with rfl | h
        · exact hnot hmem
        · exact hfresh other (List.mem_cons_of_mem _ hmem) h

/-! ### Methods -/

theorem mem_intercalate {α : Type} {sep part : List α} {parts : List (List α)} {a : α}
    (ha : a ∈ part) (h : part ∈ parts) : a ∈ sep.intercalate parts := by
  induction parts with
  | nil => cases h
  | cons first rest ih =>
    cases rest with
    | nil =>
      rw [List.mem_singleton.1 h] at ha
      rwa [List.intercalate_singleton]
    | cons second rest =>
      rw [List.intercalate_cons_cons, List.mem_append, List.mem_append]
      rcases List.mem_cons.1 h with rfl | h
      · exact .inl (.inl ha)
      · exact .inr (ih h)

/-- **A signature is never empty:** it holds the parentheses of the parameters. -/
theorem signature_ne_empty (method : SourceNode) : signature method ≠ "" := by
  have hpart : ∀ name parameters : String,
      '(' ∈ (name ++ "(" ++ parameters ++ ")").toList := fun name parameters => by
    simp only [String.toList_append, List.mem_append]
    exact .inl (.inl (.inr (by decide)))
  have hmem : '(' ∈ (signature method).toList := by
    rw [signature, String.toList_append, List.mem_append, String.toList_intercalate]
    have hparameters := hpart method.name
      (", ".intercalate ((method.childrenOf .parameter).map parameterText))
    refine .inl (mem_intercalate hparameters (List.mem_map_of_mem ?_))
    exact List.mem_append_right _ (List.mem_cons_of_mem _ List.mem_cons_self)
  intro hempty
  rw [hempty] at hmem
  exact List.not_mem_nil hmem

/-- **What a method describes as thrown it also lists.** -/
theorem mem_thrownBy_of_described {method : SourceNode} {comment : Option DocComment}
    {name : WideString} (h : name ∈ NameMap.names (thrownBy method comment).2) :
    name ∈ (thrownBy method comment).1 := by
  rw [thrownBy] at h ⊢
  split at h
  · cases h
  · rw [if_neg ‹_›]
    exact NameMap.mem_names_ofEntries.1 h

theorem strayNames_methodModel (method : SourceNode) : (methodModel method).strayNames = [] := by
  have hnone : (NameMap.names (thrownBy method method.doc).2).filter
      (!(thrownBy method method.doc).1.contains ·) = [] := by
    refine List.filter_eq_nil_iff.2 fun name hname => ?_
    rw [List.contains_iff_mem.2 (mem_thrownBy_of_described hname)]
    exact Bool.false_ne_true
  rw [MethodModel.strayNames]
  show NameSet.ofList ((NameMap.names (thrownBy method method.doc).2).filter
    (!(thrownBy method method.doc).1.contains ·)) = []
  rw [hnone]
  rfl

/-- The names of the parameters of a method. -/
def SourceNode.parameterNames (method : SourceNode) : List String :=
  (method.childrenOf .parameter).map (·.name)

theorem names_extractParameters (method : SourceNode) (comment : Option DocComment) :
    (extractParameters method comment).map (·.name) = method.parameterNames := by
  rw [extractParameters, List.map_map, SourceNode.parameterNames]
  rfl

/-- **A method has a model just if its parameters have different names**, and otherwise the name of one
of them is told. -/
theorem extractMethod_eq (method : SourceNode) :
    extractMethod method = match firstRepeated? [] method.parameterNames with
      | some parameter => .error (.duplicateParameter parameter method.name)
      | none => .ok (methodModel method) := by
  have hsignature : ¬(methodModel method).signature.isEmpty = true := fun h =>
    signature_ne_empty method (String.isEmpty_iff.1 h)
  have hnames : (methodModel method).parameters.map (·.name) = method.parameterNames :=
    names_extractParameters method method.doc
  rw [extractMethod, MethodModel.validate, if_neg hsignature, hnames, strayNames_methodModel]
  cases firstRepeated? [] method.parameterNames with
  | some parameter => rfl
  | none => rfl

/-! ### Declarations -/

/-- A method of a declaration has two parameters of one name. -/
def SourceNode.Clashes (declaration : SourceNode) : Prop :=
  ∃ method ∈ declaration.childrenOf .method, ¬ method.parameterNames.Nodup

/-- **The methods of a declaration have models just if none has two parameters of one name**, and
otherwise such a method is told. -/
theorem extractMethods_spec (declaration : SourceNode) :
    (¬ declaration.Clashes ∧ ∃ models, extractMethods declaration = .ok models) ∨
      (declaration.Clashes ∧ ∃ parameter method,
        extractMethods declaration = .error (.duplicateParameter parameter method)) := by
  rw [extractMethods, SourceNode.Clashes]
  induction declaration.childrenOf .method with
  | nil => exact .inl ⟨nofun, [], rfl⟩
  | cons method rest ih =>
    rw [List.mapM_cons, extractMethod_eq]
    cases hrepeated : firstRepeated? [] method.parameterNames with
    | some parameter =>
      refine .inr ⟨⟨method, List.mem_cons_self, fun hnodup => ?_⟩, parameter, method.name, rfl⟩
      rw [firstRepeated?_eq_none_iff.2 ⟨hnodup, fun _ _ => List.not_mem_nil⟩] at hrepeated
      cases hrepeated
    | none =>
      have hnodup := (firstRepeated?_eq_none_iff.1 hrepeated).1
      rcases ih with ⟨hclear, models, hmodels⟩ | ⟨⟨other, hother, hclash⟩, parameter, name, hfault⟩
      · refine .inl ⟨?_, methodModel method :: models, by rw [hmodels]; rfl⟩
        rintro ⟨other, hother, hclash⟩
        rcases List.mem_cons.1 hother with rfl | hother
        · exact hclash hnodup
        · exact hclear ⟨other, hother, hclash⟩
      · exact .inr ⟨⟨other, List.mem_cons_of_mem _ hother, hclash⟩, parameter, name, by rw [hfault]; rfl⟩

theorem DeclarationKind.ofName?_name (kind : DeclarationKind) : ofName? kind.name = some kind := by
  cases kind with
  | classType => decide
  | interfaceType => decide
  | enumType => decide
  | recordType => decide
  | annotationType => decide

/-- **The record of a unit is in order just if its declaration has a name or a package.** -/
theorem validate_assemble (unit : SourceUnit) (declaration : SourceNode) (kind : DeclarationKind)
    (fields : List FieldModel) (methods : List MethodModel) :
    (assemble unit declaration kind fields methods).validate =
      if declaration.name = "" ∧ unit.package = "" then .error .emptyName
      else .ok { assemble unit declaration kind fields methods with kind } := by
  have hkind : DeclarationKind.ofName? (assemble unit declaration kind fields methods).kind =
    some kind := kind.ofName?_name
  have hempty : (assemble unit declaration kind fields methods).fullyQualifiedName.isEmpty = true ↔
      declaration.name = "" ∧ unit.package = "" := by
    show (if unit.package.isEmpty = true then declaration.name
      else unit.package ++ "." ++ declaration.name).isEmpty = true ↔ _
    rw [String.isEmpty_iff]
    by_cases hpackage : unit.package = ""
    · rw [if_pos (String.isEmpty_iff.2 hpackage), and_iff_left hpackage]
    · rw [if_neg (fun h => hpackage (String.isEmpty_iff.1 h))]
      refine iff_of_false (fun h => ?_) fun h => hpackage h.2
      rw [String.append_eq_empty_iff, String.append_eq_empty_iff] at h
      exact hpackage h.1.1
  rw [UnitRecord.validate, hkind]
  by_cases hname : declaration.name = "" ∧ unit.package = ""
  · rw [if_pos (hempty.2 hname), if_pos hname]
  · rw [if_neg (fun h => hname (hempty.1 h)), if_neg hname]

/-- **What the model of a unit is made of**: the type that the unit is about, its fields and the models
of its methods. -/
theorem exists_of_ofUnit {unit : SourceUnit} {model : UnitModel}
    (h : UnitModel.ofUnit unit = .ok model) :
    ∃ d i kind methods, unit.select = .ok (d, i, kind) ∧ extractMethods d = .ok methods ∧
      ¬(d.name = "" ∧ unit.package = "") ∧
      model = { assemble unit d kind (extractFields d) methods with kind } := by
  obtain ⟨⟨d, i, kind⟩, hselect, h⟩ := Except.bind_eq_ok h
  obtain ⟨methods, hmethods, h⟩ := Except.bind_eq_ok h
  have h := Except.mapError_eq_ok h
  rw [validate_assemble] at h
  split at h
  · cases h
  · exact ⟨d, i, kind, methods, Except.mapError_eq_ok hselect, Except.mapError_eq_ok hmethods, ‹_›,
      (Except.ok.inj h).symm⟩

end SourceDoc
