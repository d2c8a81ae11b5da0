import SourceDoc.Proofs.Grammar.HeadingParses
import SourceDoc.Proofs.Node.Loading

/-!
# Method nodes and their headings

A method node in the nodes of a source comes from a declaration of a method
(`exists_declaration_of_within`).  It shows what the heading of the method tells (`Heading.Tells`), and
nodes with the same heading look the same (`Heading.Tells.sameHeading`).
-/

namespace SourceDoc

/-! ### Nodes in nodes -/

/-- A node is one of these nodes or stands somewhere in them. -/
inductive Within (node : SourceNode) : List SourceNode → Prop where
  | here {nodes : List SourceNode} (h : node ∈ nodes) : Within node nodes
  | under {nodes : List SourceNode} {parent : SourceNode} (hparent : parent ∈ nodes)
      (h : Within node parent.children) : Within node nodes

/-- A node that is no method and holds none. -/
def SourceNode.IsLeaf (node : SourceNode) : Prop := node.kind ≠ .method ∧ node.children = []

theorem within_singleton {node parent : SourceNode} :
    Within node [parent] ↔ node = parent ∨ Within node parent.children := by
  constructor
  · intro h
    cases h with
    | here h => exact .inl (List.mem_singleton.1 h)
    | under hparent h =>
      obtain rfl := List.mem_singleton.1 hparent
      exact .inr h
  · rintro (rfl | h)
    · exact .here List.mem_cons_self
    · exact .under List.mem_cons_self h

theorem Within.kind_ne_method {node : SourceNode} {nodes : List SourceNode} (h : Within node nodes)
    (hleaves : ∀ n ∈ nodes, n.IsLeaf) : node.kind ≠ .method := by
  cases h with
  | here h => exact (hleaves node h).1
  | under hparent h =>
    rw [(hleaves _ hparent).2] at h
    cases h with
    | here h => cases h
    | under hparent h => cases hparent

/-- Two nodes of parameters with the same name, type, modifiers and number of arguments. -/
structure SameParameter (p q : SourceNode) : Prop where
  kind : p.kind = q.kind
  name : p.name = q.name
  typeText : p.typeText = q.typeText
  varargs : p.varargs = q.varargs
  modifiers : p.modifiers = q.modifiers

/-- Two nodes of methods with the same modifiers, type parameters, result, name, thrown types and
parameters. -/
structure SameHeading (m n : SourceNode) : Prop where
  kind : m.kind = n.kind
  modifiers : m.modifiers = n.modifiers
  typeParameters : m.typeParameters = n.typeParameters
  typeText : m.typeText = n.typeText
  name : m.name = n.name
  throws : m.throws = n.throws
  parameters : List.Forall₂ SameParameter m.children n.children

end SourceDoc

namespace SourceDoc.Tree

open SourceDoc.TokenText SourceDoc.Grammar SourceDoc.Token

variable {src : TokenText} {d : Declaration} {node : SourceNode}

/-! ### Headings of nodes -/

theorem exists_of_forall₂ {α β : Type} {R : α → β → Prop} {as : List α} {bs : List β}
    (h : List.Forall₂ R as bs) : ∀ b ∈ bs, ∃ a ∈ as, R a b := by
  induction h with
  | nil => exact nofun
  | @cons a b as bs hhead _ ih =>
    refine List.forall_mem_cons.2 ⟨⟨a, List.mem_cons_self, hhead⟩, fun b hb => ?_⟩
    obtain ⟨a, ha, hab⟩ := ih b hb
    exact ⟨a, List.mem_cons_of_mem _ ha, hab⟩

/-- What a parameter tells of its node. -/
structure Parameter.Tells (p : Parameter) (node : SourceNode) : Prop where
  kind : node.kind = .parameter
  name : node.name = p.name
  typeText : node.typeText = some p.type.render
  varargs : node.varargs = p.varargs
  modifiers : node.modifiers = if p.isFinal then ["final"] else []
  children : node.children = []

/-- What a heading tells of the node of a method. -/
structure Heading.Tells (h : Heading) (node : SourceNode) : Prop where
  kind : node.kind = .method
  modifiers : node.modifiers = NameSet.ofList h.modifiers
  typeParameters : node.typeParameters = h.typeParameters
  typeText : node.typeText = some (resultText h.result)
  name : node.name = h.name
  throws : node.throws = h.thrown.map (".".intercalate ·)
  parameters : List.Forall₂ Parameter.Tells h.parameters node.children

theorem Parameter.tells_of_node {p : Parameter} (h : p.node src = .ok node) : p.Tells node := by
  obtain ⟨annotations, -, h⟩ := Except.bind_eq_ok h
  obtain rfl := Except.ok.inj h
  exact ⟨rfl, rfl, rfl, rfl, rfl, rfl⟩

/-- What the node of a method or constructor holds. -/
theorem callableNode_eq {kind : NodeKind} {label : String} {header : Header} {result : Option String}
    {callable : Callable} (h : callableNode src kind label header result callable = .ok node) :
    ∃ annotations children text, List.Forall₂ Parameter.Tells callable.parameters children ∧
      node = {
        kind, name := callable.name, typeText := result,
        modifiers := NameSet.ofList header.modifiers, annotations, comment := header.comment, children,
        typeParameters := callable.typeParameters, throws := callable.throws, text } := by
  obtain ⟨anchor, -, h⟩ := Except.bind_eq_ok h
  obtain ⟨first, -, h⟩ := Except.bind_eq_ok h
  obtain ⟨last, -, h⟩ := Except.bind_eq_ok h
  obtain ⟨annotations, -, h⟩ := Except.bind_eq_ok h
  obtain ⟨children, hchildren, h⟩ := Except.bind_eq_ok h
  obtain ⟨text, -, h⟩ := Except.bind_eq_ok h
  have hparameters := (Except.forall₂_of_mapM hchildren).imp fun _ _ => Parameter.tells_of_node
  exact ⟨annotations, children, text, hparameters, (Except.ok.inj h).symm⟩

/-- The node of a method shows the heading of the method, in whatever order the modifiers stand. -/
theorem Heading.tells_of_node {h : Heading} {callable : Callable}
    (hnode : d.node src = .ok node) (hbody : d.body = .method h.result callable)
    (hmodifiers : NameSet.ofList d.header.modifiers = NameSet.ofList h.modifiers)
    (htypeParameters : callable.typeParameters = h.typeParameters) (hname : callable.name = h.name)
    (hthrown : callable.throws = h.thrown.map (".".intercalate ·))
    (hparameters : callable.parameters.map Parameter.bare = h.parameters.map Parameter.bare) :
    h.Tells node := by
  obtain ⟨header, body⟩ := d
  obtain rfl : body = .method h.result callable := hbody
  obtain ⟨annotations, children, text, htells, rfl⟩ := callableNode_eq hnode
  -- Annotations of parameters are not told of.
  have hbare : List.Forall₂ Parameter.Tells (h.parameters.map Parameter.bare) children := by
    rw [← hparameters, List.forall₂_map_left_iff]
    exact htells.imp fun _ _ ht => ⟨ht.1, ht.2, ht.3, ht.4, ht.5, ht.6⟩
  rw [List.forall₂_map_left_iff] at hbare
  exact ⟨rfl, hmodifiers, htypeParameters, rfl, hname, hthrown,
    hbare.imp fun _ _ ht => ⟨ht.1, ht.2, ht.3, ht.4, ht.5, ht.6⟩⟩

theorem Parameter.Tells.sameParameter {p : Parameter} {a b : SourceNode} (ha : p.Tells a)
    (hb : p.Tells b) : SameParameter a b where
  kind := ha.kind.trans hb.kind.symm
  name := ha.name.trans hb.name.symm
  typeText := ha.typeText.trans hb.typeText.symm
  varargs := ha.varargs.trans hb.varargs.symm
  modifiers := ha.modifiers.trans hb.modifiers.symm

theorem forall₂_sameParameter {ps : List Parameter} {as bs : List SourceNode}
    (ha : List.Forall₂ Parameter.Tells ps as) (hb : List.Forall₂ Parameter.Tells ps bs) :
    List.Forall₂ SameParameter as bs := by
  induction ha generalizing bs with
  | nil =>
    cases hb
    exact .nil
  | cons hhead _ ih =>
    cases hb with
    | cons hother hrest => exact .cons (hhead.sameParameter hother) (ih hrest)

/-- Nodes of methods with one heading look the same. -/
theorem Heading.Tells.sameHeading {h : Heading} {m n : SourceNode} (hm : h.Tells m)
    (hn : h.Tells n) : SameHeading m n where
  kind := hm.kind.trans hn.kind.symm
  modifiers := hm.modifiers.trans hn.modifiers.symm
  typeParameters := hm.typeParameters.trans hn.typeParameters.symm
  typeText := hm.typeText.trans hn.typeText.symm
  name := hm.name.trans hn.name.symm
  throws := hm.throws.trans hn.throws.symm
  parameters := forall₂_sameParameter hm.parameters hn.parameters

/-! ### Declarations of nodes -/

theorem forall₂_of_nodes {ds : List Declaration} {nodes : List SourceNode}
    (h : Declaration.nodes src ds = .ok nodes) :
    List.Forall₂ (fun d n => d.node src = .ok n) ds nodes := by
  induction ds generalizing nodes with
  | nil =>
    cases h
    exact .nil
  | cons d ds ih =>
    rw [Declaration.nodes] at h
    obtain ⟨node, hnode, h⟩ := Except.bind_eq_ok h
    obtain ⟨rest, hrest, h⟩ := Except.bind_eq_ok h
    obtain rfl := Except.ok.inj h
    exact .cons hnode (ih hrest)

/-- The nodes of a parsed source are built, if the brackets are closed that are looked for. -/
theorem exists_nodes_of_closes {code : WideString} {tree : CompilationUnit}
    (hparse : parseTree code = .ok (src, tree)) (hcloses : Closes src tree.types)
    (hends : ¬ Escape.EndsInEscape code.toList) :
    ∃ nodes, Declaration.nodes src tree.types = .ok nodes := by
  cases hnodes : Declaration.nodes src tree.types with
  | ok nodes => exact ⟨nodes, rfl⟩
  | error fault =>
    obtain ⟨d, hd, hlacks⟩ := (gives_nodes_of_parseTree hparse).fault hnodes
    exact absurd (hcloses.endsInEscape_of_lacks hparse hd hlacks) hends

theorem eq_singleton_of_nodes {nodes : List SourceNode} (h : Declaration.nodes src [d] = .ok nodes) :
    ∃ node, d.node src = .ok node ∧ nodes = [node] := by
  cases forall₂_of_nodes h with
  | cons hnode hrest =>
    cases hrest
    exact ⟨_, hnode, rfl⟩

/-- What the node of a type holds. -/
theorem typeNode_eq {header : Header} {kind : DeclarationKind} {name : String}
    {typeParameters : List String} {parents interfaces : List TypeRef} {members : List Declaration}
    {extent : Extent}
    (h : (Body.type kind name typeParameters parents interfaces members extent).node src header =
      .ok node) :
    ∃ annotations children text, Declaration.nodes src members = .ok children ∧
      node = {
        kind := .type kind, name, modifiers := NameSet.ofList header.modifiers, annotations,
        comment := header.comment, children, parents := parents.map TypeRef.render,
        interfaces := interfaces.map TypeRef.render, typeParameters, text } := by
  rw [Body.node] at h
  obtain ⟨anchor, -, h⟩ := Except.bind_eq_ok h
  obtain ⟨first, -, h⟩ := Except.bind_eq_ok h
  obtain ⟨annotations, -, h⟩ := Except.bind_eq_ok h
  obtain ⟨children, hchildren, h⟩ := Except.bind_eq_ok h
  obtain ⟨stop, -, h⟩ := Except.bind_eq_ok h
  obtain ⟨text, -, h⟩ := Except.bind_eq_ok h
  exact ⟨annotations, children, text, hchildren, (Except.ok.inj h).symm⟩

/-- The node of a type holds those of its members. -/
theorem nodes_of_typeNode {header : Header} {kind : DeclarationKind} {name : String}
    {typeParameters : List String} {parents interfaces : List TypeRef} {members : List Declaration}
    {extent : Extent}
    (h : (Body.type kind name typeParameters parents interfaces members extent).node src header =
      .ok node) :
    node.kind = .type kind ∧ Declaration.nodes src members = .ok node.children := by
  obtain ⟨annotations, children, text, hchildren, rfl⟩ := typeNode_eq h
  exact ⟨rfl, hchildren⟩

/-- The node of a field holds its variables. -/
theorem isLeaf_of_fieldNode {header : Header} {t : TypeRef} {ds : List Declarator}
    (h : fieldNode src header t ds = .ok node) :
    node.kind = .field ∧ ∀ child ∈ node.children, child.IsLeaf := by
  obtain ⟨values, -, h⟩ := Except.bind_eq_ok h
  obtain ⟨anchor, -, h⟩ := Except.bind_eq_ok h
  obtain ⟨first, -, h⟩ := Except.bind_eq_ok h
  obtain ⟨annotations, -, h⟩ := Except.bind_eq_ok h
  obtain ⟨last, -, h⟩ := Except.bind_eq_ok h
  obtain ⟨text, -, h⟩ := Except.bind_eq_ok h
  obtain rfl := Except.ok.inj h
  refine ⟨rfl, fun child hchild => ?_⟩
  obtain ⟨i, hi, rfl⟩ := List.getElem_of_mem hchild
  rw [List.getElem_zipWith]
  exact ⟨NodeKind.noConfusion, rfl⟩

theorem isLeaf_of_tells {ps : List Parameter} {nodes : List SourceNode}
    (h : List.Forall₂ Parameter.Tells ps nodes) : ∀ child ∈ nodes, child.IsLeaf := by
  intro child hchild
  obtain ⟨p, -, hp⟩ := exists_of_forall₂ h child hchild
  exact ⟨fun hkind => absurd (hp.kind.symm.trans hkind) (by decide), hp.children⟩

/-- A method that stands alone in something else is the only method there. -/
theorem Heading.Tells.within_iff {h : Heading} {m x other : SourceNode} (hm : h.Tells m)
    (hx : x.kind ≠ .method) (hchildren : x.children = [m]) :
    Within other [x] ∧ other.kind = .method ↔ other = m := by
  constructor
  · rintro ⟨hwithin, hkind⟩
    rw [within_singleton, hchildren, within_singleton] at hwithin
    rcases hwithin with rfl | hwithin | hwithin
    · exact absurd hkind hx
    · exact hwithin
    · exact absurd hkind (hwithin.kind_ne_method (isLeaf_of_tells hm.parameters))
  · rintro rfl
    rw [within_singleton, hchildren]
    exact ⟨.inr (.here List.mem_cons_self), hm.kind⟩

theorem isLeaf_of_callableNode {kind : NodeKind} {label : String} {header : Header}
    {result : Option String} {callable : Callable}
    (h : callableNode src kind label header result callable = .ok node) :
    node.kind = kind ∧ ∀ child ∈ node.children, child.IsLeaf := by
  obtain ⟨annotations, children, text, htells, rfl⟩ := callableNode_eq h
  exact ⟨rfl, isLeaf_of_tells htells⟩

/-- A node that is built for a declaration is a method just if the declaration is one; what it holds are
the nodes of members, unless it holds no methods. -/
theorem Declaration.node_cases (h : d.node src = .ok node) :
    (node.kind = .method → ∃ result callable, d.body = .method result callable) ∧
      ((∃ members, Declaration.nodes src members = .ok node.children ∧
          Declaration.allOf members = d.body.nested) ∨
        ∀ child ∈ node.children, child.IsLeaf) := by
  obtain ⟨header, body⟩ := d
  rw [Declaration.node] at h
  cases body with
  | type kind name typeParameters parents interfaces members extent =>
    obtain ⟨hkind, hchildren⟩ := nodes_of_typeNode h
    exact ⟨fun hmethod => absurd (hkind.symm.trans hmethod) (by simp), .inl ⟨members, hchildren, rfl⟩⟩
  | field t ds =>
    obtain ⟨hkind, hleaves⟩ := isLeaf_of_fieldNode h
    exact ⟨fun hmethod => absurd (hkind.symm.trans hmethod) (by simp), .inr hleaves⟩
  | method result callable =>
    exact ⟨fun _ => ⟨result, callable, rfl⟩, .inr (isLeaf_of_callableNode h).2⟩
  | constructor callable =>
    obtain ⟨hkind, hleaves⟩ := isLeaf_of_callableNode h
    exact ⟨fun hmethod => absurd (hkind.symm.trans hmethod) (by simp), .inr hleaves⟩

/-- **A method node comes from the declaration of a method.** -/
theorem exists_declaration_of_within {ds : List Declaration} {nodes : List SourceNode}
    (hnodes : Declaration.nodes src ds = .ok nodes) (hwithin : Within node nodes)
    (hkind : node.kind = .method) :
    ∃ d ∈ Declaration.allOf ds, d.node src = .ok node ∧
      ∃ result callable, d.body = .method result callable := by
  -- The induction goes from the outermost nodes inwards, along with the members of types.
  induction hwithin generalizing ds with
  | here hmem =>
    obtain ⟨d, hd, hnode⟩ := exists_of_forall₂ (forall₂_of_nodes hnodes) _ hmem
    have hall := Declaration.mem_allOf.2 ⟨d, hd, Declaration.mem_all.2 (.inl rfl)⟩
    exact ⟨d, hall, hnode, (Declaration.node_cases hnode).1 hkind⟩
  | under hparent hwithin ih =>
    obtain ⟨e, he, hnode⟩ := exists_of_forall₂ (forall₂_of_nodes hnodes) _ hparent
    rcases (Declaration.node_cases hnode).2 with ⟨members, hmembers, hnested⟩ | hleaves
    · obtain ⟨d, hd, hmethod⟩ := ih hmembers
      rw [hnested] at hd
      exact ⟨d, Declaration.mem_allOf.2 ⟨e, he, Declaration.mem_all.2 (.inr hd)⟩, hmethod⟩
    · exact absurd hkind (hwithin.kind_ne_method hleaves)

end SourceDoc.Tree
