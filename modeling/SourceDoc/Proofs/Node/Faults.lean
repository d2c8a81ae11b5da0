import SourceDoc.Proofs.Escape.Ends
import SourceDoc.Proofs.Span.Dimensions

/-!
# Why nodes cannot be built

The nodes of a parsed source are built by looking for tokens: by place, by text and by counting
brackets.  Places and texts are always found, since the positions in the tree are those of tokens.  What
may be missing is the partner of a bracket, since the grammar accepts sources that leave brackets open;
and a place in the source, if the table of offsets is too short.  `Lacks` says which faults a declaration
can have, and these are the only ones (`gives_nodes`).
-/

namespace SourceDoc.Tree

open SourceDoc.TokenText SourceDoc.Grammar SourceDoc.Grammar.Parser SourceDoc.Token

/-! ### What is looked for -/

/-- The tokens of the body of a type, method or constructor, from brace to brace. -/
def Body.block? : Body → Option Extent
  | .type _ _ _ _ _ _ extent => some extent
  | .field _ _ => none
  | .method _ callable => callable.body
  | .constructor callable => callable.body

/-- What an annotation is given stands behind a parenthesis at this place. -/
structure AnnotationUse.Opens (tokens : Array Token) (use : AnnotationUse) (k : Nat) : Prop where
  /-- The annotation is given something. -/
  given : use.element ≠ .absent
  /-- From the place of the annotation to the parenthesis there is its name. -/
  name : ∃ i t, tokens[i]? = some t ∧ use.position = some t.position ∧ Nested tokens i k
  /-- The parenthesis follows. -/
  opener : Stands tokens k "("

/-- Why the node of a declaration cannot be built. -/
inductive Lacks (src : TokenText) (d : Declaration) : SpanFault → Prop where
  /-- The brace of the body is unclosed. -/
  | body {extent : Extent} {t : Token} (hblock : d.body.block? = some extent)
      (ht : src.tokens[extent.first]? = some t) (hunclosed : Unclosed src.tokens extent.first) :
      Lacks src d (.unbalanced t.value t.position)
  /-- The parenthesis of an annotation is unclosed. -/
  | value {use : AnnotationUse} {k : Nat} {t : Token} (huse : use ∈ d.uses)
      (hopens : use.Opens src.tokens k) (ht : src.tokens[k]? = some t)
      (hunclosed : Unclosed src.tokens k) : Lacks src d (.unbalanced t.value t.position)
  /-- A square bracket behind what is taken for a variable is unclosed. -/
  | dimension {type : TypeRef} {ds : List Declarator} {k : Nat} {t : Token}
      (hbody : d.body = .field type ds)
      (hdimension : src.Dimension d.header.position (declared ds) k)
      (ht : src.tokens[k]? = some t) (hunclosed : Unclosed src.tokens k) :
      Lacks src d (.unbalanced t.value t.position)
  /-- The table of offsets is too short. -/
  | place (hshort : TooShort src) : Lacks src d .outOfRange

/-- A declaration stands among the tokens, and what follows it does not leave the bracket that it is
in. -/
structure Lies (tokens : Array Token) (d : Declaration) : Prop where
  /-- It stands where its extent says. -/
  layout : DeclarationAt tokens d
  /-- Its annotations stand among the tokens. -/
  used : AllUsed tokens d.uses
  /-- What follows it up to the last token is as high as it. -/
  remains : ∃ last, tokens.size ≤ last ∧ Remains .heading tokens d.header.extent.stop last

variable {src : TokenText} {E : SpanFault → Prop} {d : Declaration}

/-! ### Annotations -/

/-- **The parentheses of an annotation are found by its place.** -/
theorem valueRange_eq (hspread : Spread src) {use : AnnotationUse} {k : Nat}
    (hopens : use.Opens src.tokens k) :
    valueRange src use.position =
      src.closing k >>= fun closer => .ok ((k : Int) + 1, closer - 1) := by
  obtain ⟨i, t, ht, hposition, hnested⟩ := hopens.name
  rw [valueRange, hposition, indexOf_position hspread ht]
  show (src.find i "(" >>= fun _ => _) = _
  rw [find_of_nested hnested hopens.opener]
  rfl

section
variable (hplaced : Placed src) (hshort : TooShort src → E .outOfRange)
include hplaced hshort

/-- The texts of named values are found between the places of their names. -/
theorem gives_pairTexts {last : Int} (hlast : last < src.size) {pairs : List (ElementPair × Int)}
    (hpairs : ∀ p ∈ pairs, 0 ≤ p.2 ∧ p.2 < (src.size : Int)) :
    Except.Gives E (fun _ => True) (pairTexts src last pairs) := by
  induction pairs with
  | nil => exact .ok trivial
  | cons p rest ih =>
    obtain ⟨hstart, hrest⟩ := List.forall_mem_cons.1 hpairs
    rw [pairTexts.eq_def]
    refine (gives_cut hplaced hshort (by omega) ?_).bind fun _ _ => (ih hrest).bind fun _ _ =>
      .ok trivial
    cases rest with
    | nil => exact hlast
    | cons next rest =>
      have := (hrest next List.mem_cons_self).2
      dsimp only
      omega

/-- **The values of an annotation are found, unless its parenthesis is unclosed.** -/
theorem gives_annotationNode (hspread : Spread src) {use : AnnotationUse} {i j : Nat}
    (huse : UseAt src.tokens i use j)
    (hvalue : ∀ k t, use.Opens src.tokens k → src.tokens[k]? = some t → Unclosed src.tokens k →
      E (.unbalanced t.value t.position)) :
    Except.Gives E (fun _ => True) (use.node src) := by
  -- What stands between the parentheses ends before the last token.
  have hrange : ∀ {k : Nat}, use.Opens src.tokens k →
      Except.Gives E (fun range => 0 ≤ range.1 ∧ range.2 < (src.size : Int))
        (valueRange src use.position) := by
    intro k hopens
    rw [valueRange_eq hspread hopens]
    obtain ⟨t, ht, hround⟩ := hopens.opener
    rcases closing_cases ht (by rw [hround]; decide) with ⟨-, j, hpartner, hfound⟩ | ⟨hunclosed, hfault⟩
    · have hsize : j < src.size := hpartner.lt_size
      rw [hfound]
      exact .ok ⟨by dsimp only; omega, by dsimp only; omega⟩
    · rw [hfault]
      exact .error (hvalue k t hopens ht hunclosed)
  cases huse with
  | marker => exact .ok trivial
  | empty => exact .ok trivial
  | given ht hname hopen helement =>
    cases helement with
    | single =>
      refine (hrange ⟨nofun, ⟨_, _, ht, rfl, hname⟩, hopen⟩).bind fun range hbounds => ?_
      exact (gives_cut hplaced hshort hbounds.1 hbounds.2).bind fun _ _ => .ok trivial
    | pairs hpairs =>
      refine (hrange ⟨nofun, ⟨_, _, ht, rfl, hname⟩, hopen⟩).bind fun range hbounds => ?_
      have hstarts := Except.Gives.mapM (E := E) (Q := fun start => 0 ≤ start ∧ start < (src.size : Int))
        (f := fun pair : ElementPair => src.indexOf "ElementValuePair" pair.position)
        fun pair hpair => by
          obtain ⟨k, t, ht, hposition⟩ := hpairs.exists_token pair hpair
          have hsize := (Array.getElem?_eq_some_iff.1 ht).1
          rw [hposition, indexOf_position hspread ht]
          exact .ok ⟨Int.natCast_nonneg _, Int.ofNat_lt.2 hsize⟩
      refine hstarts.bind fun starts hbounded => ?_
      refine (gives_pairTexts hplaced hshort hbounds.2 fun p hp => ?_).bind fun _ _ => .ok trivial
      exact hbounded _ (List.of_mem_zip hp).2

end

/-! ### Declarations -/

section
variable (hspread : Spread src) (hplaced : Placed src) (h : Lies src.tokens d)
include hspread hplaced h

theorem Lies.gives_annotationNodes {uses : List AnnotationUse} (huses : ∀ use ∈ uses, use ∈ d.uses) :
    Except.Gives (Lacks src d) (fun _ => True) (annotationNodes src uses) := by
  refine (Except.Gives.mapM (Q := fun _ => True) fun use huse => ?_).mono (fun _ h => h)
    fun _ _ => trivial
  obtain ⟨i, j, hat⟩ := h.used use (huses use huse)
  exact gives_annotationNode hplaced .place hspread hat fun k t hopens ht hunclosed =>
    .value (huses use huse) hopens ht hunclosed

omit hplaced in
/-- Where a declaration is anchored and where it starts is always found. -/
theorem Lies.exists_anchor : ∃ anchor : Nat, (∃ t, src.tokens[anchor]? = some t ∧
      d.header.position = some t.position) ∧
    (∀ label, src.indexOf label d.header.position = .ok (anchor : Int)) ∧
    src.declarationStart anchor (d.header.annotations.map (·.position)) =
      .ok (d.header.extent.first : Int) ∧ BodyAt src.tokens anchor d.header.extent.stop d.body := by
  obtain ⟨anchor, hheader, hbody⟩ := h.layout
  obtain ⟨t, ht, hposition⟩ := hheader.position
  refine ⟨anchor, ⟨t, ht, hposition⟩, fun label => ?_, declarationStart_eq hspread hheader, hbody⟩
  rw [hposition]
  exact indexOf_position hspread ht label

omit hspread hplaced in
/-- **The end of a type, method or constructor is found, unless the brace of its body is unclosed.** -/
theorem Lies.gives_declarationEnd {anchor : Nat}
    (hat : CallableAt src.tokens anchor d.header.extent.stop d.body.block?) :
    Except.Gives (Lacks src d) (· < (src.size : Int)) (src.declarationEnd anchor) := by
  obtain ⟨last, hlast, hremains⟩ := h.remains
  exact TokenText.gives_declarationEnd hat hremains hlast fun extent t hblock ht hunclosed =>
    .body hblock ht hunclosed

/-- The initial values of a field. -/
theorem Lies.gives_initializers {type : TypeRef} {ds : List Declarator}
    (hbody : d.body = .field type ds) :
    Except.Gives (Lacks src d) (fun _ => True) (src.initializers d.header.position (declared ds)) := by
  obtain ⟨anchor, ⟨t, ht, hposition⟩, -⟩ := h.exists_anchor hspread
  exact gives_readInitializers hspread ht hposition
    (fun k u hdimension hu hunclosed => .dimension hbody hdimension hu hunclosed)
    (fun first last hfirst hlast => gives_cut hplaced .place hfirst hlast)

theorem Lies.gives_fieldNode {type : TypeRef} {ds : List Declarator} (hbody : d.body = .field type ds) :
    Except.Gives (Lacks src d) (fun _ => True) (fieldNode src d.header type ds) := by
  obtain ⟨anchor, ⟨t, ht, -⟩, hanchor, hstart, -⟩ := h.exists_anchor hspread
  obtain ⟨stop, hstop, hlt⟩ := exists_statementEnd (Array.getElem?_eq_some_iff.1 ht).1
  refine (h.gives_initializers hspread hplaced hbody).bind fun values _ => ?_
  refine .bind_ok (hanchor _) ?_
  refine .bind_ok hstart ?_
  refine (h.gives_annotationNodes hspread hplaced fun use huse =>
    List.mem_append_left _ huse).bind fun _ _ => ?_
  refine .bind_ok hstop ?_
  exact (gives_cut hplaced .place (Int.natCast_nonneg _) hlt).bind fun _ _ => .ok trivial

theorem Lies.gives_callableNode (kind : NodeKind) (label : String) (result : Option String)
    {callable : Callable}
    (hat : ∀ anchor, BodyAt src.tokens anchor d.header.extent.stop d.body →
      CallableAt src.tokens anchor d.header.extent.stop d.body.block?)
    (huses : d.body.uses = callable.parameters.flatMap (·.annotations)) :
    Except.Gives (Lacks src d) (fun _ => True)
      (callableNode src kind label d.header result callable) := by
  obtain ⟨anchor, -, hanchor, hstart, hbody⟩ := h.exists_anchor hspread
  refine .bind_ok (hanchor _) ?_
  refine .bind_ok hstart ?_
  refine (h.gives_declarationEnd (hat anchor hbody)).bind fun stop hstop => ?_
  refine (h.gives_annotationNodes hspread hplaced fun use huse =>
    List.mem_append_left _ huse).bind fun _ _ => ?_
  have hparameters := Except.Gives.mapM (l := callable.parameters) (f := Parameter.node src)
    (E := Lacks src d) (Q := fun _ => True) fun p hp => by
      refine (h.gives_annotationNodes hspread hplaced fun use huse => ?_).bind fun _ _ => .ok trivial
      refine List.mem_append_right _ ?_
      rw [huses]
      exact List.mem_flatMap.2 ⟨p, hp, huse⟩
  refine hparameters.bind fun _ _ => ?_
  exact (gives_cut hplaced .place (Int.natCast_nonneg _) hstop).bind fun _ _ => .ok trivial

end

mutual

theorem gives_node (hspread : Spread src) (hplaced : Placed src) :
    (d : Declaration) → (∀ e ∈ d.all, Lies src.tokens e) →
      Except.Gives (fun fault => ∃ e ∈ d.all, Lacks src e fault) (fun _ => True) (d.node src)
  | .mk header body, h => gives_bodyNode hspread hplaced header body h

theorem gives_bodyNode (hspread : Spread src) (hplaced : Placed src) (header : Header) :
    (body : Body) → (∀ e ∈ (Declaration.mk header body).all, Lies src.tokens e) →
      Except.Gives (fun fault => ∃ e ∈ (Declaration.mk header body).all, Lacks src e fault)
        (fun _ => True) (body.node src header)
  | .field type ds, h => by
    have hself := h _ (Declaration.mem_all.2 (.inl rfl))
    exact (hself.gives_fieldNode hspread hplaced rfl).mono
      (fun fault hfault => ⟨_, Declaration.mem_all.2 (.inl rfl), hfault⟩) fun _ h => h
  | .method result callable, h => by
    have hself := h _ (Declaration.mem_all.2 (.inl rfl))
    exact (hself.gives_callableNode hspread hplaced _ _ _ (fun _ hat => hat) rfl).mono
      (fun fault hfault => ⟨_, Declaration.mem_all.2 (.inl rfl), hfault⟩) fun _ h => h
  | .constructor callable, h => by
    have hself := h _ (Declaration.mem_all.2 (.inl rfl))
    exact (hself.gives_callableNode hspread hplaced _ _ _ (fun _ hat => hat) rfl).mono
      (fun fault hfault => ⟨_, Declaration.mem_all.2 (.inl rfl), hfault⟩) fun _ h => h
  | .type kind name typeParameters parents interfaces members extent, h => by
    have hmem := Declaration.mem_all (d := .mk header
      (.type kind name typeParameters parents interfaces members extent)).2 (.inl rfl)
    have hself := h _ hmem
    obtain ⟨anchor, -, hanchor, hstart, hnested, hbraced, hstop⟩ := hself.exists_anchor hspread
    rw [Body.node]
    refine .bind_ok (hanchor _) ?_
    refine .bind_ok hstart ?_
    refine ((hself.gives_annotationNodes hspread hplaced fun use huse =>
      List.mem_append_left _ huse).mono (fun fault hfault => ⟨_, hmem, hfault⟩)
        fun _ h => h).bind fun _ _ => ?_
    have hmembers : ∀ e ∈ Declaration.allOf members, e ∈ (Declaration.mk header
        (.type kind name typeParameters parents interfaces members extent)).all :=
      fun e he => Declaration.mem_all.2 (.inr he)
    refine ((gives_nodes hspread hplaced members fun e he => h e (hmembers e he)).mono
      (fun fault ⟨e, he, hfault⟩ => ⟨e, hmembers e he, hfault⟩) fun _ h => h).bind fun _ _ => ?_
    refine ((hself.gives_declarationEnd ⟨hnested.rises _, hbraced, hstop⟩).mono
      (fun fault hfault => ⟨_, hmem, hfault⟩) fun _ h => h).bind fun stop hstop => ?_
    exact (gives_cut hplaced (fun hshort => ⟨_, hmem, .place hshort⟩) (Int.natCast_nonneg _)
      hstop).bind fun _ _ => .ok trivial

/-- **Nodes are built, unless one of the declarations lacks something.** -/
theorem gives_nodes (hspread : Spread src) (hplaced : Placed src) :
    (ds : List Declaration) → (∀ e ∈ Declaration.allOf ds, Lies src.tokens e) →
      Except.Gives (fun fault => ∃ e ∈ Declaration.allOf ds, Lacks src e fault) (fun _ => True)
        (Declaration.nodes src ds)
  | [], _ => .ok trivial
  | d :: ds, h => by
    rw [Declaration.allOf] at h
    obtain ⟨hd, hds⟩ := List.forall_mem_append.1 h
    rw [Declaration.nodes, Declaration.allOf]
    refine ((gives_node hspread hplaced d hd).mono (fun fault ⟨e, he, hfault⟩ =>
      ⟨e, List.mem_append_left _ he, hfault⟩) fun _ h => h).bind fun _ _ => ?_
    exact ((gives_nodes hspread hplaced ds hds).mono (fun fault ⟨e, he, hfault⟩ =>
      ⟨e, List.mem_append_right _ he, hfault⟩) fun _ h => h).bind fun _ _ => .ok trivial

end

end SourceDoc.Tree
