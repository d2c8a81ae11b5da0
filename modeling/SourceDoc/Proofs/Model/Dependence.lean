import SourceDoc.Proofs.Report.Outcomes

/-!
# What a model depends on

A model tells a declaration by its outline: the declaration with its fields and methods only, these with
their variables and parameters only (`SourceNode.outline`).  Neither constructors, nested types and what
else stands in the declaration nor what stands beside it make a difference, as long as the unit stays
about that declaration (`UnitModel.ofUnit_of_outline_eq`).
-/

namespace SourceDoc

/-! ### Outlines -/

/-- The kind of the children that a model tells of a member: the variables of a field and the parameters
of a method.  Other children of a declaration are no members. -/
def NodeKind.partKind? : NodeKind → Option NodeKind
  | .field => some .variable
  | .method => some .parameter
  | _ => none

namespace SourceNode

/-- A node without its children of other kinds. -/
def withOnly (node : SourceNode) (kind : NodeKind) : SourceNode :=
  { node with children := node.childrenOf kind }

/-- A child of a declaration with nothing in it but its parts, if it is a member. -/
def member? (child : SourceNode) : Option SourceNode := child.kind.partKind?.map child.withOnly

/-- A declaration with nothing in it but its members and their parts. -/
def outline (declaration : SourceNode) : SourceNode :=
  { declaration with children := declaration.children.filterMap member? }

theorem childrenOf_withOnly (node : SourceNode) (kind : NodeKind) :
    (node.withOnly kind).childrenOf kind = node.childrenOf kind := by
  simp only [childrenOf, withOnly, List.filter_filter, Bool.and_self]

theorem kind_of_member? {child member : SourceNode} (h : child.member? = some member) :
    member.kind = child.kind := by
  obtain ⟨part, -, rfl⟩ := Option.map_eq_some_iff.1 h
  rfl

/-- The members of a kind in an outline are those of the declaration, with their parts only. -/
theorem childrenOf_outline (declaration : SourceNode) {kind part : NodeKind}
    (h : kind.partKind? = some part) :
    declaration.outline.childrenOf kind = (declaration.childrenOf kind).map (·.withOnly part) := by
  rw [childrenOf, childrenOf, outline]
  simp only
  induction declaration.children with
  | nil => rfl
  | cons child children ih =>
    by_cases hkind : child.kind = kind
    · have hmember : child.member? = some (child.withOnly part) := by
        rw [member?, hkind, h, Option.map_some]
      have hkept : ((child.withOnly part).kind == kind) = true := beq_iff_eq.2 hkind
      rw [List.filterMap_cons_some hmember, List.filter_cons, if_pos hkept, List.filter_cons,
        if_pos (beq_iff_eq.2 hkind), List.map_cons, ih]
    · -- A member of another kind is in the outline, but not among those of this kind.
      rw [List.filter_cons (x := child), if_neg (mt beq_iff_eq.1 hkind), ← ih]
      cases hmember : child.member? with
      | none => rw [List.filterMap_cons_none hmember]
      | some member =>
        rw [List.filterMap_cons_some hmember, List.filter_cons, kind_of_member? hmember,
          if_neg (mt beq_iff_eq.1 hkind)]

end SourceNode

/-! ### Members -/

theorem fieldModels_withOnly (field : SourceNode) :
    fieldModels (field.withOnly .variable) = fieldModels field := by
  rw [fieldModels, SourceNode.childrenOf_withOnly]
  rfl

theorem signature_withOnly (method : SourceNode) :
    signature (method.withOnly .parameter) = signature method := by
  rw [signature, SourceNode.childrenOf_withOnly]
  rfl

theorem extractParameters_withOnly (method : SourceNode) (comment : Option DocComment) :
    extractParameters (method.withOnly .parameter) comment = extractParameters method comment := by
  rw [extractParameters, SourceNode.childrenOf_withOnly, extractParameters]

theorem extractMethod_withOnly (method : SourceNode) :
    extractMethod (method.withOnly .parameter) = extractMethod method := by
  rw [extractMethod, methodModel, signature_withOnly, extractParameters_withOnly]
  rfl

/-- The fields of a declaration are told by its outline. -/
theorem extractFields_outline (declaration : SourceNode) :
    extractFields declaration.outline = extractFields declaration := by
  rw [extractFields, declaration.childrenOf_outline rfl, List.flatMap_map]
  simp only [fieldModels_withOnly]
  rfl

/-- The methods of a declaration are told by its outline. -/
theorem extractMethods_outline (declaration : SourceNode) :
    extractMethods declaration.outline = extractMethods declaration := by
  rw [extractMethods, declaration.childrenOf_outline rfl, List.mapM_map]
  exact congrArg (List.mapM · _) (funext extractMethod_withOnly)

/-! ### Selection -/

namespace SourceUnit

/-- A unit with another declaration in place of one of its declarations. -/
def setDeclaration (unit : SourceUnit) (index : Nat) (declaration : SourceNode) : SourceUnit :=
  { unit with declarations := unit.declarations.set index declaration }

theorem chosen_eq_ok_iff {unit : SourceUnit} {found : SourceNode × Nat} :
    unit.chosen = .ok found ↔
      (∃ name, unit.Named name ∧
        unit.declarations.zipIdx.find? (·.1.name == name) = some found) ∨
      (∀ name, ¬ unit.Named name) ∧
        (unit.declarations.zipIdx.find? (·.1.modifiers.contains "public")).or
          unit.declarations.zipIdx.head? = some found := by
  rw [not_named_iff]
  simp only [named_iff, chosen]
  cases unit.declarations.zipIdx with
  | nil => simp
  | cons first rest =>
    cases unit.primaryName.filter (!·.isEmpty) with
    | none =>
      generalize (first :: rest).find? (·.1.modifiers.contains "public") = exposed
      cases exposed <;> simp
    | some name =>
      have hknown : ∀ other, some name = some other ↔ other = name := fun other => by
        rw [Option.some.injEq, eq_comm]
      simp only [hknown, exists_eq_left]
      generalize (first :: rest).find? (·.1.name == name) = named
      cases named <;> simp

/-- The first of some declarations to pass a test stays the first, if what takes its place passes. -/
theorem find?_zipIdx_set {test : SourceNode → Bool} {ds : List SourceNode} {d d' : SourceNode}
    {n i : Nat} (htest : test d' = test d)
    (h : (ds.zipIdx n).find? (fun found => test found.1) = some (d, n + i)) :
    ((ds.set i d').zipIdx n).find? (fun found => test found.1) = some (d', n + i) := by
  induction ds generalizing n i with
  | nil => cases h
  | cons e ds ih =>
    rw [List.zipIdx_cons] at h
    cases he : test e with
    | true =>
      rw [List.find?_cons_of_pos (a := (e, n)) he] at h
      obtain ⟨rfl, hi⟩ := Prod.mk.inj (Option.some.inj h)
      obtain rfl : i = 0 := by omega
      rw [List.set_cons_zero, List.zipIdx_cons,
        List.find?_cons_of_pos (a := (d', n)) (htest.trans he), Nat.add_zero]
    | false =>
      have hfails : ¬test e = true := Bool.not_eq_true _ ▸ he
      rw [List.find?_cons_of_neg (a := (e, n)) hfails] at h
      -- The one that passes is in the rest, where the indices begin with `n + 1`.
      have hlater : n + 1 ≤ n + i := List.le_snd_of_mem_zipIdx (List.mem_of_find?_eq_some h)
      obtain ⟨i, rfl⟩ : ∃ i', i = i' + 1 := ⟨i - 1, by omega⟩
      have hindex : n + (i + 1) = n + 1 + i := by omega
      rw [hindex] at h ⊢
      rw [List.set_cons_succ, List.zipIdx_cons, List.find?_cons_of_neg (a := (e, n)) hfails, ih h]

/-- **Only names and modifiers count when a declaration is chosen.** -/
theorem chosen_setDeclaration {unit : SourceUnit} {d d' : SourceNode} {i : Nat}
    (hname : d'.name = d.name) (hmodifiers : d'.modifiers = d.modifiers)
    (h : unit.chosen = .ok (d, i)) : (unit.setDeclaration i d').chosen = .ok (d', i) := by
  have hset (test : SourceNode → Bool) (htest : test d' = test d)
      (hfound : unit.declarations.zipIdx.find? (fun found => test found.1) = some (d, i)) :
      (unit.setDeclaration i d').declarations.zipIdx.find? (fun found => test found.1) =
        some (d', i) := by
    have hmoved := find?_zipIdx_set (n := 0) htest (by rwa [Nat.zero_add])
    rwa [Nat.zero_add] at hmoved
  rw [chosen_eq_ok_iff] at h ⊢
  rcases h with ⟨name, hnamed, hfound⟩ | ⟨hnamed, hfound⟩
  · exact .inl ⟨name, hnamed, hset (·.name == name) (by rw [hname]) hfound⟩
  · refine .inr ⟨hnamed, ?_⟩
    rcases Option.or_eq_some_iff.1 hfound with hpublic | ⟨hnone, hhead⟩
    · rw [hset (·.modifiers.contains "public") (by rw [hmodifiers]) hpublic]
      rfl
    · -- No declaration is public, so that the first one is chosen.
      rw [List.head?_zipIdx] at hhead
      obtain ⟨e, hds, heq⟩ := Option.map_eq_some_iff.1 hhead
      obtain ⟨rfl, rfl⟩ := Prod.mk.inj heq
      obtain ⟨rest, hds⟩ := List.head?_eq_some_iff.1 hds
      have hprivate : ¬ e.modifiers.contains "public" = true :=
        List.find?_eq_none.1 hnone (e, 0) (by rw [hds]; exact List.mem_cons_self)
      rw [hds, List.zipIdx_cons, List.find?_cons_of_neg (a := (e, 0)) hprivate] at hnone
      rw [← hmodifiers] at hprivate
      rw [setDeclaration, hds, List.set_cons_zero, List.zipIdx_cons,
        List.find?_cons_of_neg (a := (d', 0)) hprivate, hnone]
      rfl

/-- A declaration with the outline of the selected one is selected in its place. -/
theorem select_setDeclaration {unit : SourceUnit} {d d' : SourceNode} {i : Nat}
    {kind : DeclarationKind} (houtline : d'.outline = d.outline)
    (h : unit.select = .ok (d, i, kind)) :
    (unit.setDeclaration i d').select = .ok (d', i, kind) := by
  have hname : d'.name = d.name := (congrArg SourceNode.name houtline :)
  have hmodifiers : d'.modifiers = d.modifiers := (congrArg SourceNode.modifiers houtline :)
  have hkind : d'.kind = d.kind := (congrArg SourceNode.kind houtline :)
  rw [select_eq_ok_iff] at h ⊢
  exact ⟨chosen_setDeclaration hname hmodifiers h.1, hkind.trans h.2⟩

end SourceUnit

/-! ### Models -/

theorem UnitModel.ofUnit_of_select {unit : SourceUnit} {d : SourceNode} {i : Nat}
    {kind : DeclarationKind} (h : unit.select = .ok (d, i, kind)) :
    UnitModel.ofUnit unit = ((extractMethods d).mapError BuildFault.invalid >>= fun methods =>
      (assemble unit d kind (extractFields d) methods).validate.mapError BuildFault.invalid) := by
  rw [UnitModel.ofUnit, h]
  rfl

/-- Of the unit a record has the path and the package only. -/
theorem assemble_congr {unit other : SourceUnit} {d d' : SourceNode} (hpath : other.path = unit.path)
    (hpackage : other.package = unit.package) (houtline : d'.outline = d.outline)
    (kind : DeclarationKind) (fields : List FieldModel) (methods : List MethodModel) :
    assemble other d' kind fields methods = assemble unit d kind fields methods := by
  calc assemble other d' kind fields methods
      = assemble other d'.outline kind fields methods := rfl
    _ = assemble unit d.outline kind fields methods := by
      rw [houtline, assemble, assemble, hpath, hpackage]
    _ = assemble unit d kind fields methods := rfl

/-- **A model depends on nothing but the outline of the declaration that the unit is about**, next to the
path and the package.  Let another unit with the path and the package of a unit be about the same
declaration, with any declarations around it, any text and any language.  Then a declaration that has
the same outline can take its place there: it is selected, and what comes of the unit is the same model
or the same fault. -/
theorem UnitModel.ofUnit_of_outline_eq {unit other : SourceUnit} {d d' : SourceNode} {i j : Nat}
    {kind kind' : DeclarationKind} (hselect : unit.select = .ok (d, i, kind))
    (hother : other.select = .ok (d, j, kind')) (hpath : other.path = unit.path)
    (hpackage : other.package = unit.package) (houtline : d'.outline = d.outline) :
    (other.setDeclaration j d').select = .ok (d', j, kind) ∧
      UnitModel.ofUnit (other.setDeclaration j d') = UnitModel.ofUnit unit := by
  obtain rfl : kind' = kind :=
    NodeKind.type.inj ((SourceUnit.select_eq_ok_iff.1 hother).2.symm.trans
      (SourceUnit.select_eq_ok_iff.1 hselect).2)
  have hset := SourceUnit.select_setDeclaration houtline hother
  have hfields : extractFields d' = extractFields d := by
    rw [← extractFields_outline, houtline, extractFields_outline]
  have hmethods : extractMethods d' = extractMethods d := by
    rw [← extractMethods_outline, houtline, extractMethods_outline]
  have hassemble : ∀ methods, assemble (other.setDeclaration j d') d' kind' (extractFields d) methods =
      assemble unit d kind' (extractFields d) methods :=
    assemble_congr hpath hpackage houtline kind' (extractFields d)
  refine ⟨hset, ?_⟩
  rw [ofUnit_of_select hset, ofUnit_of_select hselect, hfields, hmethods]
  simp only [hassemble]

/-- A class with a field and a method, other children in front of them and behind them, and other
children within them. -/
def counter (front back within : List SourceNode) : SourceNode :=
  { kind := .type .classType
    name := "Counter"
    modifiers := ["public"]
    children := front ++
      [{ kind := .field
         typeText := some "int"
         children := within ++ [{ kind := .variable, name := "count" }] },
       { kind := .method
         name := "add"
         children := { kind := .parameter, name := "n", typeText := some "int" } :: within }] ++
      back }

/-- A constructor that has two parameters of one name. -/
def clashing : SourceNode :=
  { kind := .constructor
    name := "Counter"
    children := [{ kind := .parameter, name := "n" }, { kind := .parameter, name := "n" }] }

/-- A class of a name with a method. -/
def holder (name : String) : SourceNode :=
  { kind := .type .classType, name, children := [{ kind := .method, name := "reset" }] }

/-- The constructor is taken away, the nested class is moved and others stand within the members, in a
unit of another language with more declarations. -/
theorem UnitModel.ofUnit_of_outline_eq_counter :
    let written := counter [clashing, holder "Inner"] [] []
    let changed := counter [] [holder "Inner"] [clashing, holder "Local"]
    let unit : SourceUnit := { path := "Counter.java", package := "p", declarations := [written] }
    let other : SourceUnit :=
      { unit with
        declarations := [holder "First", written, counter [] [] []]
        language := "kotlin"
        text := "class First" }
    (other.setDeclaration 1 changed).select = .ok (changed, 1, .classType) ∧
      UnitModel.ofUnit (other.setDeclaration 1 changed) = UnitModel.ofUnit unit ∧
      (UnitModel.ofUnit unit).toOption.map (fun m => (m.fields.map (·.name), m.methods.map (·.name))) =
        some (["count"], ["add"]) := by
  intro written changed unit other
  have hselect : unit.select = .ok (written, 0, .classType) := rfl
  have hother : other.select = .ok (written, 1, .classType) := rfl
  have houtline : changed.outline = written.outline := rfl
  obtain ⟨hchanged, hmodel⟩ := ofUnit_of_outline_eq hselect hother rfl rfl houtline
  exact ⟨hchanged, hmodel, by decide +kernel⟩

end SourceDoc
