import SourceDoc.Proofs.Node.Methods
import SourceDoc.Proofs.Report.Outcomes

/-!
# What holds of every model

A model is in order (`UnitModel.InOrder`): its name with the package is made of the two and is not
empty, an interface has no superclass, and each method has a signature, distinct parameters and
descriptions of listed exceptions only.  It shows a type of the source with the methods of that type,
and an argument for a parameter must be given unless the parameter takes any number of them
(`inOrder_of_ofSource`).

The names of type parameters are shown as they are written.  Nothing compares them, so a model has a
name twice if the source has it twice (`typeParameters_repeated`).
-/

namespace SourceDoc

/-! ### Models in order -/

/-- A method has a signature, distinct parameters, and describes only exceptions that it lists. -/
structure MethodModel.InOrder (m : MethodModel) : Prop where
  signature : m.signature ≠ ""
  parameters : (m.parameters.map (·.name)).Nodup
  exceptions : ∀ name ∈ NameMap.names m.exceptionDescriptions, name ∈ m.exceptions

/-- The name of a unit is made of package and name, its kind is a known one, an interface has no
superclass and the methods are in order. -/
structure UnitModel.InOrder (model : UnitModel) : Prop where
  fullyQualifiedName : model.fullyQualifiedName =
    if model.package = "" then model.name else model.package ++ "." ++ model.name
  nonempty : model.fullyQualifiedName ≠ ""
  kind : model.kind.name ∈ ["CLASS", "INTERFACE", "ENUM", "RECORD", "ANNOTATION"]
  superclass : model.kind = .interfaceType → model.superclass = none
  methods : ∀ m ∈ model.methods, m.InOrder

/-- **A method with a model has different names for its parameters**, and the model is in order. -/
theorem MethodModel.inOrder_of_extractMethod {method : SourceNode} {m : MethodModel}
    (h : extractMethod method = .ok m) : m = methodModel method ∧ m.InOrder := by
  rw [extractMethod_eq] at h
  split at h
  · cases h
  · rename_i hdistinct
    obtain rfl := Except.ok.inj h
    refine ⟨rfl, signature_ne_empty method, ?_, fun name => mem_thrownBy_of_described⟩
    have hnames : (methodModel method).parameters.map (·.name) = method.parameterNames :=
      names_extractParameters method method.doc
    rw [hnames]
    exact (firstRepeated?_eq_none_iff.1 hdistinct).1

/-- The models of methods are made one by one, and are in order. -/
theorem MethodModel.inOrder_of_extractMethods {declaration : SourceNode} {methods : List MethodModel}
    (h : extractMethods declaration = .ok methods) :
    methods = (declaration.childrenOf .method).map methodModel ∧ ∀ m ∈ methods, m.InOrder := by
  have hall := (Except.forall₂_of_mapM h).imp fun _ _ => inOrder_of_extractMethod
  constructor
  · rw [← List.forall₂_eq_eq_eq, List.forall₂_map_right_iff]
    exact hall.flip.imp fun _ _ hm => hm.1
  · intro m hm
    obtain ⟨n, -, -, horder⟩ := Tree.exists_of_forall₂ hall m hm
    exact horder

theorem inheritance_interface (declaration : SourceNode) :
    (inheritance .interfaceType declaration).2 = none :=
  rfl

/-- **A model is in order**, whatever unit it is made from. -/
theorem UnitModel.inOrder_of_ofUnit {unit : SourceUnit} {model : UnitModel}
    (h : UnitModel.ofUnit unit = .ok model) : model.InOrder := by
  obtain ⟨d, i, kind, methods, -, hmethods, hname, rfl⟩ := exists_of_ofUnit h
  have hfull : (assemble unit d kind (extractFields d) methods).fullyQualifiedName =
      if unit.package = "" then d.name else unit.package ++ "." ++ d.name := by
    simp only [assemble, String.isEmpty_iff]
  constructor
  case fullyQualifiedName => exact hfull
  case nonempty =>
    change (assemble unit d kind (extractFields d) methods).fullyQualifiedName ≠ ""
    rw [hfull]
    split
    · exact fun hempty => hname ⟨hempty, ‹_›⟩
    · simp [String.append_eq_empty_iff]
  case kind =>
    change kind.name ∈ _
    cases kind <;> simp [DeclarationKind.name]
  case superclass =>
    rintro rfl
    exact inheritance_interface d
  case methods => exact (MethodModel.inOrder_of_extractMethods hmethods).2

/-! ### What models show -/

namespace SourceUnit

theorem Primary.mem {unit : SourceUnit} {d : SourceNode} (h : unit.Primary d) :
    d ∈ unit.declarations := by
  have hfirst : ∀ {p : SourceNode → Prop}, IsFirst p unit.declarations d → d ∈ unit.declarations := by
    rintro p ⟨before, after, hds, -, -⟩
    rw [hds]
    exact List.mem_append_right _ List.mem_cons_self
  cases h with
  | named _ h => exact hfirst h
  | exposed _ h => exact hfirst h
  | first _ _ h => exact List.mem_of_mem_head? h

/-- The declaration that a unit is about is one of its declarations. -/
theorem mem_of_chosen {unit : SourceUnit} {d : SourceNode} {i : Nat}
    (h : unit.chosen = .ok (d, i)) : d ∈ unit.declarations := by
  have hfound : ¬ unit.Missing := fun hmissing => by
    obtain ⟨detail, hdetail⟩ := chosen_of_missing hmissing
    rw [hdetail] at h
    cases h
  obtain ⟨e, he⟩ := exists_primary_of_not_missing hfound
  obtain ⟨j, hj⟩ := exists_chosen_of_primary he
  rw [hj] at h
  cases h
  exact he.mem

theorem mem_of_select {unit : SourceUnit} {d : SourceNode} {i : Nat} {kind : DeclarationKind}
    (h : unit.select = .ok (d, i, kind)) : d ∈ unit.declarations ∧ d.kind = .type kind := by
  obtain ⟨hchosen, hkind⟩ := select_eq_ok_iff.1 h
  exact ⟨mem_of_chosen hchosen, hkind⟩

end SourceUnit

namespace Tree

variable {src : TokenText} {d : Declaration} {node : SourceNode}

/-- The method that a declaration declares. -/
def Declaration.method? : Declaration → Option Callable
  | .mk _ (.method _ callable) => some callable
  | _ => none

/-- The model of a parameter shows its name and type, and that an argument must be given unless any
number of them may be. -/
structure Parameter.ShownBy (p : Parameter) (model : ParameterModel) : Prop where
  name : model.name = p.name
  typeName : model.typeName = p.type.render
  isRequired : model.isRequired = true ↔ p.varargs = false

/-- The model of a method shows its name, its type parameters and its parameters. -/
structure Callable.ShownBy (c : Callable) (model : MethodModel) : Prop where
  name : model.name = c.name
  typeParameters : model.typeParameters = c.typeParameters
  parameters : List.Forall₂ Parameter.ShownBy c.parameters model.parameters

theorem childrenOf_parameter {ps : List Parameter}
    (h : List.Forall₂ Parameter.Tells ps node.children) : node.childrenOf .parameter = node.children := by
  refine List.filter_eq_self.2 fun child hchild => ?_
  obtain ⟨p, -, hp⟩ := exists_of_forall₂ h child hchild
  rw [hp.kind]
  rfl

theorem Parameter.Tells.shownBy {p : Parameter} (h : p.Tells node) (comment : Option DocComment) :
    p.ShownBy {
      name := node.name, typeName := node.typeText.getD "",
      description := comment.bind (·.paramDescription node.name), isRequired := !node.varargs } where
  name := h.name
  typeName := by rw [h.typeText, Option.getD_some]
  isRequired := by rw [h.varargs, Bool.not_eq_true']

/-- **The model of a method shows the method that the source declares.** -/
theorem Callable.shownBy_methodModel {header : Header} {result : Option TypeRef} {callable : Callable}
    (h : (Declaration.mk header (.method result callable)).node src = .ok node) :
    callable.ShownBy (methodModel node) := by
  obtain ⟨annotations, children, text, htells, rfl⟩ := callableNode_eq h
  refine ⟨rfl, rfl, ?_⟩
  change List.Forall₂ _ _ (extractParameters _ _)
  rw [extractParameters, childrenOf_parameter htells, List.forall₂_map_right_iff]
  exact htells.imp fun _ _ hp => hp.shownBy _

theorem Declaration.method?_eq_none (h : d.node src = .ok node) (hkind : node.kind ≠ .method) :
    d.method? = none := by
  obtain ⟨header, body⟩ := d
  cases body with
  | method result callable => exact absurd (isLeaf_of_callableNode h).1 hkind
  | _ => rfl

/-- The nodes of methods among those of members are the nodes of the methods among the members. -/
theorem forall₂_methods {members : List Declaration} {nodes : List SourceNode}
    (h : List.Forall₂ (fun d n => d.node src = .ok n) members nodes) :
    List.Forall₂ (fun c n => c.ShownBy (methodModel n)) (members.filterMap Declaration.method?)
      (nodes.filter (·.kind == .method)) := by
  induction h with
  | nil => exact .nil
  | @cons d n members nodes hnode _ ih =>
    by_cases hkind : n.kind = .method
    · obtain ⟨result, callable, hbody⟩ := (Declaration.node_cases hnode).1 hkind
      obtain ⟨header, body⟩ := d
      obtain rfl : body = .method result callable := hbody
      rw [List.filter_cons_of_pos (by simpa using hkind)]
      exact .cons (Callable.shownBy_methodModel hnode) ih
    · rw [List.filterMap_cons_none (Declaration.method?_eq_none hnode hkind),
        List.filter_cons_of_neg (by simpa using hkind)]
      exact ih

/-- A node of the kind of a type comes from the declaration of a type. -/
theorem exists_type_of_node {kind : DeclarationKind} (h : d.node src = .ok node)
    (hkind : node.kind = .type kind) :
    ∃ header parents interfaces members extent,
      d = .mk header (.type kind node.name node.typeParameters parents interfaces members extent) ∧
      List.Forall₂ (fun d n => d.node src = .ok n) members node.children := by
  obtain ⟨header, body⟩ := d
  rw [Declaration.node] at h
  cases body with
  | type k name typeParameters parents interfaces members extent =>
    obtain ⟨annotations, children, text, hchildren, rfl⟩ := typeNode_eq h
    obtain rfl := NodeKind.type.inj hkind
    exact ⟨header, parents, interfaces, members, extent, rfl, forall₂_of_nodes hchildren⟩
  | field t ds => cases (isLeaf_of_fieldNode h).1.symm.trans hkind
  | method result callable => cases (isLeaf_of_callableNode h).1.symm.trans hkind
  | constructor callable => cases (isLeaf_of_callableNode h).1.symm.trans hkind

end Tree

open SourceDoc.Tree

/-- The declarations of a unit are the nodes of the types of its source. -/
theorem SourceUnit.exists_of_ofSource {code : WideString} {filename : Option String} {unit : SourceUnit}
    (h : SourceUnit.ofSource code filename = .ok unit) :
    ∃ src tree, parseTree code = .ok (src, tree) ∧ unit.package = tree.package.getD "" ∧
      List.Forall₂ (fun d n => d.node src = .ok n) tree.types unit.declarations := by
  obtain ⟨⟨src, tree⟩, hparse, h⟩ := Except.bind_eq_ok h
  obtain ⟨nodes, hnodes, h⟩ := Except.bind_eq_ok h
  obtain rfl := Except.ok.inj h
  exact ⟨src, tree, Except.mapError_eq_ok hparse, rfl, forall₂_of_nodes (Except.mapError_eq_ok hnodes)⟩

/-- **A model of a source is in order and shows a type of the source.**  It has the package, the kind
and the name of the type, a method for each of its methods, in order, and the type parameters as they
are declared, so that no name is repeated in the model just if none is repeated in the source. -/
theorem inOrder_of_ofSource {code : WideString} {filename : Option String} {unit : SourceUnit}
    {model : UnitModel} (hunit : SourceUnit.ofSource code filename = .ok unit)
    (hmodel : UnitModel.ofUnit unit = .ok model) :
    model.InOrder ∧ ∃ src tree header declared parents interfaces members extent,
      parseTree code = .ok (src, tree) ∧ model.package = tree.package.getD "" ∧
      Declaration.mk header (.type model.kind model.name declared parents interfaces members extent) ∈
        tree.types ∧
      List.Forall₂ Callable.ShownBy (members.filterMap Declaration.method?) model.methods ∧
      model.typeParameters = declared ∧ (model.typeParameters.Nodup ↔ declared.Nodup) := by
  refine ⟨UnitModel.inOrder_of_ofUnit hmodel, ?_⟩
  obtain ⟨src, tree, hparse, hpackage, hnodes⟩ := SourceUnit.exists_of_ofSource hunit
  obtain ⟨n, i, kind, methods, hselect, hmethods, -, rfl⟩ := exists_of_ofUnit hmodel
  obtain ⟨hn, hkind⟩ := SourceUnit.mem_of_select hselect
  obtain ⟨d, hd, hnode⟩ := exists_of_forall₂ hnodes n hn
  obtain ⟨header, parents, interfaces, members, extent, rfl, hmembers⟩ :=
    exists_type_of_node hnode hkind
  refine ⟨src, tree, header, n.typeParameters, parents, interfaces, members, extent, hparse, hpackage,
    hd, ?_, rfl, Iff.rfl⟩
  change List.Forall₂ _ _ methods
  rw [(MethodModel.inOrder_of_extractMethods hmethods).1, List.forall₂_map_right_iff]
  exact forall₂_methods hmembers

/-- An interface in a package, with a method that takes any number of arguments and describes what it
throws. -/
def describedInterface : String :=
  "package p; interface I<K, V> extends J \x7b\n" ++
    "/** @throws E why */ T m(int a, T... b);\n\x7d"

/-- The model of this interface is in order. -/
theorem inOrder_of_ofSource_interface :
    ∃ unit model, SourceUnit.ofSource describedInterface none = .ok unit ∧
      UnitModel.ofUnit unit = .ok model ∧ model.InOrder ∧ model.fullyQualifiedName = "p.I" ∧
      model.typeParameters = ["K", "V"] ∧
      model.methods.map (fun m => m.parameters.map fun p => (p.name, p.isRequired)) =
        [[("a", true), ("b", false)]] := by
  obtain ⟨unit, hunit, hbuilt⟩ := exists_of_toOption_map (show
    (SourceUnit.ofSource describedInterface none).toOption.map (fun unit =>
      (UnitModel.ofUnit unit).toOption.map fun model => decide
        (model.fullyQualifiedName = "p.I" ∧ model.typeParameters = ["K", "V"] ∧
          model.methods.map (fun m => m.parameters.map fun p => (p.name, p.isRequired)) =
            [[("a", true), ("b", false)]])) = some (some true) by decide +kernel)
  obtain ⟨model, hmodel, hshown⟩ := exists_of_toOption_map hbuilt
  exact ⟨unit, model, hunit, hmodel, (inOrder_of_ofSource hunit hmodel).1, of_decide_eq_true hshown⟩

/-- A type parameter that is declared twice stands twice in the model. -/
theorem typeParameters_repeated :
    ∃ unit model, SourceUnit.ofSource "class A<T, T> \x7b\x7d" none = .ok unit ∧
      UnitModel.ofUnit unit = .ok model ∧ model.typeParameters = ["T", "T"] ∧
      ¬ model.typeParameters.Nodup := by
  obtain ⟨unit, hunit, hbuilt⟩ := exists_of_toOption_map (show
    (SourceUnit.ofSource "class A<T, T> \x7b\x7d" none).toOption.map (fun unit =>
      (UnitModel.ofUnit unit).toOption.map (·.typeParameters)) = some (some ["T", "T"]) by
    decide +kernel)
  obtain ⟨model, hmodel, hnames⟩ := exists_of_toOption_map hbuilt
  refine ⟨unit, model, hunit, hmodel, hnames, ?_⟩
  rw [hnames]
  decide

end SourceDoc
