import SourceDoc.Proofs.Node.Faults

/-!
# Which sources can be loaded

A source is loaded as a unit or as the message of why there is none, unless the building of a node
fails.  A source that is parsed gives a unit if it leaves none of the brackets open whose partners are
looked for (`Closes`) and does not end inside an escape; a source that gives a unit leaves none of them
open (`Loaded.ofSource_loads`).  Braces within a type need no mention: they are closed if those of the
outermost type are (`not_unclosed_of_braced`).
-/

namespace SourceDoc.Tree

open SourceDoc.TokenText SourceDoc.Grammar SourceDoc.Grammar.Parser SourceDoc.Token

/-- The brackets are closed whose partners are looked for when the nodes of declarations are built. -/
structure Closes (src : TokenText) (types : List Declaration) : Prop where
  /-- The bodies of the outermost types. -/
  bodies : ∀ d ∈ types, ∀ extent, d.body.block? = some extent → ¬ Unclosed src.tokens extent.first
  /-- What annotations are given. -/
  values : ∀ d ∈ Declaration.allOf types, ∀ use ∈ d.uses, ∀ k, use.Opens src.tokens k →
    ¬ Unclosed src.tokens k
  /-- The dimensions of what is taken for the variables of a field. -/
  dimensions : ∀ d ∈ Declaration.allOf types, ∀ type ds, d.body = .field type ds →
    ∀ k, src.Dimension d.header.position (declared ds) k → ¬ Unclosed src.tokens k

variable {src : TokenText} {d : Declaration}

/-! ### Nodes that are built -/

mutual

theorem exists_node_of_all :
    (d : Declaration) → (node : SourceNode) → d.node src = .ok node →
      ∀ e ∈ d.all, ∃ found, e.node src = .ok found
  | .mk header body, node, h => by
    rw [Declaration.all]
    exact List.forall_mem_cons.2 ⟨⟨node, h⟩, exists_node_of_nested header body node h⟩

theorem exists_node_of_nested (header : Header) :
    (body : Body) → (node : SourceNode) → body.node src header = .ok node →
      ∀ e ∈ body.nested, ∃ found, e.node src = .ok found
  | .field _ _, _, _ => nofun
  | .method _ _, _, _ => nofun
  | .constructor _, _, _ => nofun
  | .type _ _ _ _ _ members _, _, h => by
    rw [Body.node] at h
    obtain ⟨anchor, -, h⟩ := Except.bind_eq_ok h
    obtain ⟨first, -, h⟩ := Except.bind_eq_ok h
    obtain ⟨annotations, -, h⟩ := Except.bind_eq_ok h
    obtain ⟨children, hchildren, -⟩ := Except.bind_eq_ok h
    exact exists_node_of_nodes members children hchildren

/-- If the nodes of declarations are built, so are those of all declarations in them. -/
theorem exists_node_of_nodes :
    (ds : List Declaration) → (nodes : List SourceNode) → Declaration.nodes src ds = .ok nodes →
      ∀ e ∈ Declaration.allOf ds, ∃ found, e.node src = .ok found
  | [], _, _ => nofun
  | d :: ds, _, h => by
    rw [Declaration.nodes] at h
    obtain ⟨node, hnode, h⟩ := Except.bind_eq_ok h
    obtain ⟨nodes, hnodes, -⟩ := Except.bind_eq_ok h
    rw [Declaration.allOf]
    exact List.forall_mem_append.2
      ⟨exists_node_of_all d node hnode, exists_node_of_nodes ds nodes hnodes⟩

end

/-- The annotations of a method or constructor and of its parameters. -/
theorem exists_use_of_callableNode {kind : NodeKind} {label : String} {header : Header}
    {result : Option String} {callable : Callable} {node : SourceNode}
    (h : callableNode src kind label header result callable = .ok node) :
    ∀ use ∈ header.annotations ++ callable.parameters.flatMap (·.annotations),
      ∃ found, use.node src = .ok found := by
  obtain ⟨anchor, -, h⟩ := Except.bind_eq_ok h
  obtain ⟨first, -, h⟩ := Except.bind_eq_ok h
  obtain ⟨last, -, h⟩ := Except.bind_eq_ok h
  obtain ⟨annotations, hannotations, h⟩ := Except.bind_eq_ok h
  obtain ⟨children, hchildren, -⟩ := Except.bind_eq_ok h
  refine List.forall_mem_append.2 ⟨Except.exists_of_mapM hannotations, fun use huse => ?_⟩
  obtain ⟨p, hp, huse⟩ := List.mem_flatMap.1 huse
  obtain ⟨child, hchild⟩ := Except.exists_of_mapM hchildren p hp
  obtain ⟨found, hfound, -⟩ := Except.bind_eq_ok hchild
  exact Except.exists_of_mapM hfound use huse

/-- If the node of a declaration is built, so are those of its annotations. -/
theorem Declaration.exists_use_of_node {node : SourceNode} (h : d.node src = .ok node) :
    ∀ use ∈ d.uses, ∃ found, use.node src = .ok found := by
  obtain ⟨header, body⟩ := d
  rw [Declaration.node] at h
  cases body with
  | method result callable => exact exists_use_of_callableNode h
  | constructor callable => exact exists_use_of_callableNode h
  | field type ds =>
    obtain ⟨values, -, h⟩ := Except.bind_eq_ok h
    obtain ⟨anchor, -, h⟩ := Except.bind_eq_ok h
    obtain ⟨first, -, h⟩ := Except.bind_eq_ok h
    obtain ⟨annotations, hannotations, -⟩ := Except.bind_eq_ok h
    refine List.forall_mem_append.2 ⟨Except.exists_of_mapM hannotations, fun use huse => ?_⟩
    cases huse
  | type kind name typeParameters parents interfaces members extent =>
    rw [Body.node] at h
    obtain ⟨anchor, -, h⟩ := Except.bind_eq_ok h
    obtain ⟨first, -, h⟩ := Except.bind_eq_ok h
    obtain ⟨annotations, hannotations, -⟩ := Except.bind_eq_ok h
    refine List.forall_mem_append.2 ⟨Except.exists_of_mapM hannotations, fun use huse => ?_⟩
    cases huse

theorem AnnotationUse.Opens.not_unclosed (hspread : Spread src) {use : AnnotationUse} {k : Nat}
    (hopens : use.Opens src.tokens k) {range : Int × Int}
    (h : valueRange src use.position = .ok range) : ¬ Unclosed src.tokens k := by
  rw [valueRange_eq hspread hopens] at h
  obtain ⟨closer, hcloser, -⟩ := Except.bind_eq_ok h
  exact not_unclosed_of_closing hcloser hopens.opener (by decide)

/-- If the node of an annotation is built, its parenthesis is closed. -/
theorem AnnotationUse.not_unclosed_of_node (hspread : Spread src) {use : AnnotationUse}
    {found : AnnotationNode} (h : use.node src = .ok found) {k : Nat}
    (hopens : use.Opens src.tokens k) : ¬ Unclosed src.tokens k := by
  rw [AnnotationUse.node] at h
  split at h
  · rename_i habsent
    exact absurd habsent hopens.given
  · obtain ⟨range, hrange, -⟩ := Except.bind_eq_ok h
    exact hopens.not_unclosed hspread hrange
  · obtain ⟨range, hrange, -⟩ := Except.bind_eq_ok h
    exact hopens.not_unclosed hspread hrange

/-- If the node of a type is built, its brace is closed. -/
theorem Lies.not_unclosed_of_node (hspread : Spread src) (hlies : Lies src.tokens d)
    (htype : d.body.isType = true) {node : SourceNode} (h : d.node src = .ok node) {extent : Extent}
    (hblock : d.body.block? = some extent) : ¬ Unclosed src.tokens extent.first := by
  obtain ⟨anchor, -, hanchor, -, hbody⟩ := hlies.exists_anchor hspread
  obtain ⟨first, last, hrange, -⟩ := Declaration.text_of_node h
  obtain ⟨header, body⟩ := d
  cases body with
  | field => cases htype
  | method => cases htype
  | constructor => cases htype
  | type kind name typeParameters parents interfaces members block =>
    obtain rfl := Option.some.inj hblock
    obtain ⟨hnested, hbraced, -⟩ := hbody
    obtain ⟨found, hfound, hrange⟩ := Except.bind_eq_ok hrange
    obtain rfl := Except.ok.inj ((hanchor _).symm.trans hfound)
    obtain ⟨start, -, hrange⟩ := Except.bind_eq_ok hrange
    obtain ⟨stop, hstop, -⟩ := Except.bind_eq_ok hrange
    have hclosing := declarationEnd_eq_closing (hnested.rises _) hbraced.opener (hnested.level .heading)
    exact not_unclosed_of_closing (hclosing.symm.trans hstop) hbraced.opener (by decide)

/-- If the node of a field is built, the dimensions of its variables are closed. -/
theorem not_unclosed_of_fieldNode (hspread : Spread src) {node : SourceNode}
    (h : d.node src = .ok node) {type : TypeRef} {ds : List Declarator}
    (hbody : d.body = .field type ds) {k : Nat}
    (hdimension : src.Dimension d.header.position (declared ds) k) : ¬ Unclosed src.tokens k := by
  obtain ⟨header, body⟩ := d
  obtain rfl : body = .field type ds := hbody
  obtain ⟨values, hvalues, -⟩ := Except.bind_eq_ok h
  exact not_unclosed_of_readInitializers hspread hvalues hdimension

/-! ### Braces within braces -/

/-- **A brace is closed, if it stands in a body whose own brace is closed.** -/
theorem not_unclosed_of_braced {tokens : Array Token} {extent : Extent} (hbraced : Braced tokens extent)
    (hclosed : ¬ Unclosed tokens extent.first) {k : Nat} (hlo : extent.first < k)
    (hhi : k < extent.stop) (hbrace : Stands tokens k openBrace) : ¬ Unclosed tokens k := by
  obtain ⟨j, hj, hsize, hlevel⟩ := height_le_of_closed hclosed hbraced.opener (by decide)
  change height .braces tokens j ≤ height .braces tokens extent.first at hlevel
  -- The body is higher than its brace throughout, so the brace is closed behind it.
  have hbehind : extent.stop ≤ j := by
    by_contra hlt
    have := hbraced.lt_height hj (by omega)
    omega
  rintro ⟨t, ht, -, hhigh⟩
  obtain ⟨u, hu, hvalue⟩ := hbrace
  obtain rfl := Option.some.inj (ht.symm.trans hu)
  rw [hvalue] at hhigh
  have hlt := hhigh j (by omega) hsize
  change height .braces tokens k < height .braces tokens j at hlt
  have := hbraced.lt_height hlo hhi
  omega

/-- The body of a declaration stands within it. -/
theorem block_within {tokens : Array Token} (h : DeclarationAt tokens d) {extent : Extent}
    (hblock : d.body.block? = some extent) :
    Braced tokens extent ∧ d.header.extent.first ≤ extent.first ∧
      extent.first < extent.stop ∧ extent.stop = d.header.extent.stop := by
  obtain ⟨anchor, hheader, hbody⟩ := h
  have hle := hheader.marks.le
  have hparts : anchor ≤ extent.first ∧ Braced tokens extent ∧ d.header.extent.stop = extent.stop := by
    obtain ⟨header, body⟩ := d
    have hcallable : ∀ {callable : Callable}, callable.body = some extent →
        CallableAt tokens anchor header.extent.stop callable.body →
        anchor ≤ extent.first ∧ Braced tokens extent ∧ header.extent.stop = extent.stop := by
      intro callable hsome hat
      rw [hsome] at hat
      exact ⟨hat.1.le, hat.2⟩
    cases body with
    | field => cases hblock
    | method result callable => exact hcallable hblock hbody
    | constructor callable => exact hcallable hblock hbody
    | type =>
      obtain rfl := Option.some.inj hblock
      exact ⟨(hbody.1.rises .braces).le, hbody.2⟩
  obtain ⟨hfirst, hbraced, hstop⟩ := hparts
  obtain ⟨last, hlast, -, hrises⟩ := hbraced.closer
  have := hrises.le
  exact ⟨hbraced, by omega, by omega, hstop.symm⟩

/-! ### Parsed sources -/

theorem exists_block_of_isType {body : Body} (h : body.isType = true) :
    ∃ extent, body.block? = some extent ∧ extent.first = body.opening := by
  cases body with
  | type kind name typeParameters parents interfaces members extent => exact ⟨extent, rfl, rfl⟩
  | field => cases h
  | method => cases h
  | constructor => cases h

/-- A type stands among the tokens, and what is nested in it stands in its body. -/
structure Houses (tokens : Array Token) (e : Declaration) : Prop where
  /-- It is a type. -/
  isType : e.body.isType = true
  /-- It stands among the tokens. -/
  lies : Lies tokens e
  /-- What is nested in it stands in its body. -/
  nested : ∀ d ∈ e.body.nested, Lies tokens d ∧ e.body.opening < d.header.extent.first ∧
    d.header.extent.stop < e.header.extent.stop

theorem houses_of_parseTree {code : WideString} {tree : CompilationUnit}
    (h : parseTree code = .ok (src, tree)) : ∀ e ∈ tree.types, Houses src.tokens e := by
  obtain ⟨-, -, -, -, hunit⟩ := exists_of_parseTree h
  obtain ⟨last, hlast, hall⟩ := reads_of_parseUnit (proper_of_parseTree h) hunit
  intro e he
  obtain ⟨htype, hlayout, hused, hremains, hnested⟩ := hall e he
  refine ⟨htype, ⟨hlayout, hused, last, hlast, hremains⟩, fun d hd => ?_⟩
  have hinner := hnested d hd
  exact ⟨⟨hinner.layout, hinner.used, last, hlast, hinner.remains.trans hremains⟩, hinner.first,
    hinner.stop⟩

theorem lies_of_parseTree {code : WideString} {tree : CompilationUnit}
    (h : parseTree code = .ok (src, tree)) : ∀ d ∈ Declaration.allOf tree.types, Lies src.tokens d := by
  intro d hd
  obtain ⟨e, he, hd⟩ := Declaration.mem_allOf.1 hd
  have hhouses := houses_of_parseTree h e he
  rcases Declaration.mem_all.1 hd with rfl | hd
  · exact hhouses.lies
  · exact (hhouses.nested d hd).1

/-- **The brace of a declaration is closed, if that of the outermost type is.** -/
theorem Houses.not_unclosed {tokens : Array Token} {e : Declaration} (h : Houses tokens e)
    (hclosed : ∀ extent, e.body.block? = some extent → ¬ Unclosed tokens extent.first)
    (hd : d ∈ e.all) {extent : Extent} (hblock : d.body.block? = some extent) :
    ¬ Unclosed tokens extent.first := by
  rcases Declaration.mem_all.1 hd with rfl | hd
  · exact hclosed extent hblock
  · obtain ⟨hlies, hfirst, hstop⟩ := h.nested d hd
    obtain ⟨house, hhouse, hopening⟩ := exists_block_of_isType h.isType
    obtain ⟨hbraced, -, -, hend⟩ := block_within h.lies.layout hhouse
    obtain ⟨hown, hlo, hhi, hends⟩ := block_within hlies.layout hblock
    exact not_unclosed_of_braced hbraced (hclosed house hhouse) (by omega) (by omega) hown.opener

theorem placed_of_parseTree {code : WideString} {tree : CompilationUnit}
    (h : parseTree code = .ok (src, tree)) : Placed src := by
  obtain ⟨data, tokens, hsource, rfl, -⟩ := exists_of_parseTree h
  exact placed_of_ofSource hsource _

/-- The table of offsets of tokens that were read from a source is too short only if the source ends
inside an escape. -/
theorem endsInEscape_of_ofSource {source : List WideChar} {data : List WideChar} {tokens : List Token}
    (h : ofSource source = .ok (data, tokens))
    (hshort : TooShort (ofTokens data tokens (some source))) : Escape.EndsInEscape source := by
  obtain ⟨table, htable, hle⟩ := hshort
  have hdecoded : Escape.decode source = .ok data := by
    rw [ofSource] at h
    split at h
    · cases h
    · rename_i decoded hdecoded
      split at h
      · cases h
      · obtain ⟨rfl, -⟩ := Prod.mk.inj (Except.ok.inj h)
        exact hdecoded
  by_contra hends
  have hlt := Escape.length_lt_of_offsets? hdecoded htable hends
  exact absurd hle (Nat.not_le.2 hlt)

theorem endsInEscape_of_tooShort {code : WideString} {tree : CompilationUnit}
    (h : parseTree code = .ok (src, tree)) (hshort : TooShort src) :
    Escape.EndsInEscape code.toList := by
  obtain ⟨data, tokens, hsource, rfl, -⟩ := exists_of_parseTree h
  exact endsInEscape_of_ofSource hsource hshort

/-- **Where every bracket is closed, so are those that are looked for.** -/
theorem closes_of_forall_closed (hclosed : ∀ i, ¬ Unclosed src.tokens i) (types : List Declaration) :
    Closes src types := by
  exact ⟨fun _ _ extent _ => hclosed extent.first, fun _ _ _ _ k _ => hclosed k,
    fun _ _ _ _ _ k _ => hclosed k⟩

/-- A declaration that lacks no bracket lacks a place in the source. -/
theorem Closes.endsInEscape_of_lacks {code : WideString} {tree : CompilationUnit}
    (hcloses : Closes src tree.types) (h : parseTree code = .ok (src, tree))
    (hd : d ∈ Declaration.allOf tree.types) {fault : SpanFault} (hlacks : Lacks src d fault) :
    Escape.EndsInEscape code.toList := by
  cases hlacks with
  | body hblock ht hunclosed =>
    obtain ⟨e, he, hd⟩ := Declaration.mem_allOf.1 hd
    have hclosed := (houses_of_parseTree h e he).not_unclosed (hcloses.bodies e he) hd hblock
    exact absurd hunclosed hclosed
  | value huse hopens ht hunclosed => exact absurd hunclosed (hcloses.values d hd _ huse _ hopens)
  | dimension hbody hdimension ht hunclosed =>
    exact absurd hunclosed (hcloses.dimensions d hd _ _ hbody _ hdimension)
  | place hshort => exact endsInEscape_of_tooShort h hshort

/-- The nodes of a parsed source are built, unless one of the declarations lacks something. -/
theorem gives_nodes_of_parseTree {code : WideString} {tree : CompilationUnit}
    (h : parseTree code = .ok (src, tree)) :
    Except.Gives (fun fault => ∃ d ∈ Declaration.allOf tree.types, Lacks src d fault) (fun _ => True)
      (Declaration.nodes src tree.types) := by
  obtain ⟨hspread, -⟩ := declarationAt_of_parseTree h
  exact gives_nodes hspread (placed_of_parseTree h) tree.types (lies_of_parseTree h)

/-- **The nodes of a parsed source are built only if the brackets are closed that are looked for.** -/
theorem closes_of_nodes {code : WideString} {tree : CompilationUnit} (h : parseTree code = .ok (src, tree))
    {nodes : List SourceNode} (hnodes : Declaration.nodes src tree.types = .ok nodes) :
    Closes src tree.types := by
  obtain ⟨hspread, -⟩ := declarationAt_of_parseTree h
  have hall := exists_node_of_nodes tree.types nodes hnodes
  refine ⟨fun e he extent hblock => ?_, fun d hd use huse k hopens => ?_,
    fun d hd type ds hbody k hdimension => ?_⟩
  · have hhouses := houses_of_parseTree h e he
    obtain ⟨node, hnode⟩ := hall e
      (Declaration.mem_allOf.2 ⟨e, he, Declaration.mem_all.2 (.inl rfl)⟩)
    exact hhouses.lies.not_unclosed_of_node hspread hhouses.isType hnode hblock
  · obtain ⟨node, hnode⟩ := hall d hd
    obtain ⟨found, hfound⟩ := Declaration.exists_use_of_node hnode use huse
    exact AnnotationUse.not_unclosed_of_node hspread hfound hopens
  · obtain ⟨node, hnode⟩ := hall d hd
    exact not_unclosed_of_fieldNode hspread hnode hbody hdimension

end SourceDoc.Tree

namespace SourceDoc

open SourceDoc.Tree SourceDoc.TokenText SourceDoc.Grammar

/-! ### Loading -/

/-- A file is taken for Java: it has no name, or one with a known extension. -/
def Supported (filename : Option String) : Prop :=
  ∀ name, givenName filename = some name → languageOf? filename ≠ none

/-- **What a source is loaded as**: a message, if it cannot be parsed, and otherwise a unit with its
nodes, or the fault of a node. -/
theorem Loaded.ofSource_cases (code : WideString) {filename : Option String} (hfile : Supported filename) :
    (∃ path message, parseTree code = .error message ∧
      Loaded.ofSource code filename = .ok (.failure path message)) ∨
    ∃ src tree, parseTree code = .ok (src, tree) ∧
      ((∃ unit, Declaration.nodes src tree.types = .ok unit.declarations ∧
          Loaded.ofSource code filename = .ok (.unit unit)) ∨
        ∃ fault, Declaration.nodes src tree.types = .error fault ∧
          Loaded.ofSource code filename = .error fault) := by
  have hread : ∃ path, Loaded.ofSource code filename = Loaded.ofSource.read code filename path := by
    rw [Loaded.ofSource]
    split
    · rename_i name hname
      rw [if_neg fun hnone => hfile name hname (Option.isNone_iff_eq_none.1 hnone)]
      exact ⟨name, rfl⟩
    · exact ⟨_, rfl⟩
  obtain ⟨path, hread⟩ := hread
  rw [hread, Loaded.ofSource.read, SourceUnit.ofSource]
  cases hparse : parseTree code with
  | error message => exact .inl ⟨path, message, rfl, rfl⟩
  | ok parsed =>
    obtain ⟨src, tree⟩ := parsed
    refine .inr ⟨src, tree, rfl, ?_⟩
    simp only [Except.mapError, bind, Except.bind]
    cases Declaration.nodes src tree.types with
    | ok nodes => exact .inl ⟨_, rfl, rfl⟩
    | error fault => exact .inr ⟨fault, rfl, rfl⟩

/-- A file with an unknown extension is loaded as a message. -/
theorem Loaded.ofSource_of_not_supported (code : WideString) {filename : Option String}
    (hfile : ¬ Supported filename) : ∃ path message,
      Loaded.ofSource code filename = .ok (.failure path message) := by
  rw [Supported] at hfile
  push Not at hfile
  obtain ⟨name, hname, hlanguage⟩ := hfile
  refine ⟨name, unsupported name, ?_⟩
  rw [Loaded.ofSource, hname]
  exact if_pos (by rw [hlanguage]; rfl)

/-- **A parsed source gives a unit, unless it leaves a bracket open or ends inside an escape.**  No other
fault occurs: every place and every text is found.  A unit is given only if no bracket is left open whose
partner is looked for, and without such a bracket it is given, unless the source ends inside an escape.
There is none, if all brackets are closed. -/
theorem Loaded.ofSource_loads (code : WideString) (filename : Option String) :
    (∀ fault, Loaded.ofSource code filename = .error fault →
      ∃ src tree, parseTree code = .ok (src, tree) ∧
        ((∃ i t, src.tokens[i]? = some t ∧ Unclosed src.tokens i ∧
            fault = .unbalanced t.value t.position) ∨
          (Escape.EndsInEscape code.toList ∧ fault = .outOfRange))) ∧
    ∀ src tree, parseTree code = .ok (src, tree) → Supported filename →
      ((∃ loaded, Loaded.ofSource code filename = .ok loaded) → Closes src tree.types) ∧
      (Closes src tree.types → ¬ Escape.EndsInEscape code.toList →
        ∃ unit, Loaded.ofSource code filename = .ok (.unit unit)) ∧
      ((∀ i, ¬ Unclosed src.tokens i) → Closes src tree.types) := by
  refine ⟨fun fault hfault => ?_, fun src tree htree hfile => ?_⟩
  · by_cases hfile : Supported filename
    · rcases Loaded.ofSource_cases code hfile with ⟨path, message, -, hload⟩ |
        ⟨src, tree, htree, ⟨unit, -, hload⟩ | ⟨found, hnodes, hload⟩⟩
      · rw [hload] at hfault
        cases hfault
      · rw [hload] at hfault
        cases hfault
      · rw [hload] at hfault
        obtain rfl := Except.error.inj hfault
        obtain ⟨d, -, hlacks⟩ := (gives_nodes_of_parseTree htree).fault hnodes
        refine ⟨src, tree, htree, ?_⟩
        cases hlacks with
        | body hblock ht hunclosed => exact .inl ⟨_, _, ht, hunclosed, rfl⟩
        | value huse hopens ht hunclosed => exact .inl ⟨_, _, ht, hunclosed, rfl⟩
        | dimension hbody hdimension ht hunclosed => exact .inl ⟨_, _, ht, hunclosed, rfl⟩
        | place hshort => exact .inr ⟨endsInEscape_of_tooShort htree hshort, rfl⟩
    · obtain ⟨path, message, hload⟩ := Loaded.ofSource_of_not_supported code hfile
      rw [hload] at hfault
      cases hfault
  · rcases Loaded.ofSource_cases code hfile with ⟨path, message, hparse, -⟩ |
      ⟨src', tree', hparse, hcases⟩
    · rw [htree] at hparse
      cases hparse
    · obtain ⟨rfl, rfl⟩ := Prod.mk.inj (Except.ok.inj (htree.symm.trans hparse))
      rcases hcases with ⟨unit, hnodes, hload⟩ | ⟨fault, hnodes, hload⟩
      · exact ⟨fun _ => closes_of_nodes htree hnodes, fun _ _ => ⟨unit, hload⟩,
          (closes_of_forall_closed · _)⟩
      · refine ⟨fun ⟨loaded, hloaded⟩ => ?_, fun hcloses hends => ?_,
          (closes_of_forall_closed · _)⟩
        · rw [hload] at hloaded
          cases hloaded
        · obtain ⟨d, hd, hlacks⟩ := (gives_nodes_of_parseTree htree).fault hnodes
          exact absurd (hcloses.endsInEscape_of_lacks htree hd hlacks) hends

/-- A class with each kind of bracket whose partner is looked for, and others. -/
def closedBrackets : WideString :=
  "class T \x7b @V(\x7b1\x7d) int f[] = \x7bx[0], (1)\x7d, g[] = null; void m(@A(2) int p) \x7b \x7d \x7d"

theorem ofSource_loads_closedBrackets :
    ∃ src tree, parseTree closedBrackets = .ok (src, tree) ∧ (∀ i, ¬ Unclosed src.tokens i) ∧
      Closes src tree.types ∧ ¬ Escape.EndsInEscape closedBrackets.toList ∧
      ∃ unit, Loaded.ofSource closedBrackets none = .ok (.unit unit) := by
  have hparsed : (parseTree closedBrackets).toOption.any (fun parsed =>
      decide (∀ i < parsed.1.tokens.size, ¬ Unclosed parsed.1.tokens i)) = true := by decide +kernel
  cases hparse : parseTree closedBrackets with
  | error message =>
    rw [hparse] at hparsed
    cases hparsed
  | ok parsed =>
    obtain ⟨src, tree⟩ := parsed
    rw [hparse] at hparsed
    have hclosed : ∀ i, ¬ Unclosed src.tokens i := by
      rintro i ⟨t, ht, hunclosed⟩
      have hlt := (Array.getElem?_eq_some_iff.1 ht).1
      exact of_decide_eq_true hparsed i hlt ⟨t, ht, hunclosed⟩
    have hends : ¬ Escape.EndsInEscape closedBrackets.toList := by
      rintro ⟨n, hsuffix⟩
      have hmem := hsuffix.mem List.mem_cons_self
      exact absurd hmem (by decide +kernel)
    have hfile : Supported none := fun name hname => by cases hname
    obtain ⟨-, hloads, hcloses⟩ :=
      (Loaded.ofSource_loads closedBrackets none).2 src tree hparse hfile
    exact ⟨src, tree, rfl, hclosed, hcloses hclosed, hends, hloads (hcloses hclosed) hends⟩

/-- Four sources that are parsed and not loaded.  In each of the first three, brackets were read with the
parameters of a lambda, and when that failed, reading went back no further than to a cast, so that they
are never closed: the brace of a type, the parenthesis of an annotation, and a square bracket far behind
the field `a`, whose name `b` is taken for its second variable.  The last source ends inside an escape,
and there is no place for the end of its last type. -/
theorem ofSource_faults_of_open_brackets :
    Loaded.ofSource "class T \x7b int f = (@A(\x7b(int) x; \x7d" none =
        .error (.unbalanced "\x7b" ⟨1, 9⟩) ∧
      Loaded.ofSource "class T \x7b void f(@X((@A((int) x) int y) \x7b\x7d \x7d" none =
        .error (.unbalanced "(" ⟨1, 20⟩) ∧
      Loaded.ofSource ("class A\x7bclass B\x7bclass C\x7bclass D\x7bclass E\x7bclass F\x7b" ++
        "int a=(@A((int) x,b;\x7d\x7d\x7d\x7d\x7dint q=(@A(foo(z,b[(int) y;\x7d") none =
        .error (.unbalanced "[" ⟨1, 91⟩) ∧
      Loaded.ofSource "class A \x7b\x7d\nclass B \x7b\x7d\n// \\u" none = .error .outOfRange := by
  refine ⟨Except.eq_error_of_map (f := fun _ => ()) ?_, Except.eq_error_of_map (f := fun _ => ()) ?_,
    Except.eq_error_of_map (f := fun _ => ()) ?_, Except.eq_error_of_map (f := fun _ => ()) ?_⟩
  · decide +kernel
  · decide +kernel
  · decide +kernel
  · decide +kernel

end SourceDoc
