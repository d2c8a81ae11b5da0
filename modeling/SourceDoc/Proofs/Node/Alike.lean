import Mathlib.Data.List.Forall2
import SourceDoc.Proofs.Node.Initializers
import SourceDoc.Proofs.Span.Cuts

/-!
# Nodes of one tree with two texts

Two token texts may share their tokens and differ in the source that texts are cut from.  The nodes
that one tree gives with either of them are alike in all but the texts (`SourceNode.Alike`), and if any
two texts that are cut between the same tokens are related, so are the texts of the nodes
(`agree_nodes`).
-/

namespace SourceDoc

/-! ### Two computations -/

/-- Two computations fail alike, or both give values, which are related. -/
inductive Except.Agree {ε α β : Type} (R : α → β → Prop) : Except ε α → Except ε β → Prop where
  | ok {a : α} {b : β} (h : R a b) : Agree R (.ok a) (.ok b)
  | error (e : ε) : Agree R (.error e) (.error e)

namespace Except.Agree

variable {ε ε' α β γ δ : Type} {R : α → β → Prop} {S : γ → δ → Prop}

theorem bind {x : Except ε α} {y : Except ε β} {f : α → Except ε γ} {g : β → Except ε δ}
    (h : Agree R x y) (hfg : ∀ {a b}, R a b → Agree S (f a) (g b)) : Agree S (x >>= f) (y >>= g) := by
  cases h with
  | ok h => exact hfg h
  | error e => exact .error e

/-- Two computations that begin alike agree, if what follows does. -/
theorem bind_same {x : Except ε α} {f : α → Except ε γ} {g : α → Except ε δ}
    (hfg : ∀ a, x = .ok a → Agree S (f a) (g a)) : Agree S (x >>= f) (x >>= g) := by
  cases x with
  | ok a => exact hfg a rfl
  | error e => exact .error e

theorem mapError {x : Except ε α} {y : Except ε β} (f : ε → ε') (h : Agree R x y) :
    Agree R (x.mapError f) (y.mapError f) := by
  cases h with
  | ok h => exact .ok h
  | error e => exact .error (f e)

theorem mono {R' : α → β → Prop} {x : Except ε α} {y : Except ε β} (h : Agree R x y)
    (hR : ∀ {a b}, R a b → R' a b) : Agree R' x y := by
  cases h with
  | ok h => exact .ok (hR h)
  | error e => exact .error e

theorem mapM {l : List γ} {f : γ → Except ε α} {g : γ → Except ε β}
    (h : ∀ c ∈ l, Agree R (f c) (g c)) : Agree (List.Forall₂ R) (l.mapM f) (l.mapM g) := by
  induction l with
  | nil => exact .ok .nil
  | cons c l ih =>
    rw [List.mapM_cons, List.mapM_cons]
    refine (h c List.mem_cons_self).bind fun hab => ?_
    exact (ih fun c hc => h c (List.mem_cons_of_mem _ hc)).bind fun hrest => .ok (.cons hab hrest)

end Except.Agree

/-! ### Nodes that differ in their texts -/

/-- Two annotations that differ only in the texts of their values, which are related. -/
structure AnnotationNode.Alike (R : WideString → WideString → Prop) (a b : AnnotationNode) : Prop where
  name : a.name = b.name
  value : Option.Rel R a.value b.value
  pairs : List.Forall₂ (fun p q => p.1 = q.1 ∧ R p.2 q.2) a.pairs b.pairs

/-- Two nodes that differ only in their texts, in those of their initial values and annotations, and in
those of the nodes within; all these are related. -/
inductive SourceNode.Alike (R : WideString → WideString → Prop) : SourceNode → SourceNode → Prop where
  | intro {a b : SourceNode} (kind : a.kind = b.kind) (name : a.name = b.name)
      (typeText : a.typeText = b.typeText) (modifiers : a.modifiers = b.modifiers)
      (annotations : List.Forall₂ (AnnotationNode.Alike R) a.annotations b.annotations)
      (comment : a.comment = b.comment)
      (children : List.Forall₂ (SourceNode.Alike R) a.children b.children)
      (initializer : Option.Rel R a.initializer b.initializer) (varargs : a.varargs = b.varargs)
      (parents : a.parents = b.parents) (interfaces : a.interfaces = b.interfaces)
      (typeParameters : a.typeParameters = b.typeParameters) (throws : a.throws = b.throws)
      (text : R a.text b.text) : SourceNode.Alike R a b

/-- Two units that differ only in the texts of their nodes. -/
structure SourceUnit.Alike (R : WideString → WideString → Prop) (a b : SourceUnit) : Prop where
  path : a.path = b.path
  package : a.package = b.package
  declarations : List.Forall₂ (SourceNode.Alike R) a.declarations b.declarations
  primaryName : a.primaryName = b.primaryName
  language : a.language = b.language

namespace TokenText

/-! ### Tokens with another source -/

/-- The same tokens with another source to cut texts from. -/
def withSource (src : TokenText) (source : List WideChar) (offsets : Option (List Nat)) : TokenText :=
  { src with source, offsets }

variable {src : TokenText} {source : List WideChar} {offsets : Option (List Nat)}

theorem backOverModifiers_withSource (i : Nat) :
    (src.withSource source offsets).backOverModifiers i = src.backOverModifiers i := by
  induction i with
  | zero => rfl
  | succ i ih =>
    rw [backOverModifiers, backOverModifiers, ih]
    rfl

theorem declarationStart_withSource (anchor : Int) (annotations : List (Option Position)) :
    (src.withSource source offsets).declarationStart anchor annotations =
      src.declarationStart anchor annotations := by
  simp only [declarationStart, backOverModifiers_withSource]
  rfl

theorem firstDeclarator_withSource (anchor stop : Int) (name : String) :
    (src.withSource source offsets).firstDeclarator anchor stop name =
      src.firstDeclarator anchor stop name := by
  have hfrom : ∀ (angle i : Int) (count : Nat),
      (src.withSource source offsets).firstDeclaratorFrom name angle i count =
        src.firstDeclaratorFrom name angle i count := by
    intro angle i count
    induction count generalizing angle i with
    | zero => rfl
    | succ count ih =>
      simp only [firstDeclaratorFrom, ih]
      rfl
  exact hfrom _ _ _

theorem declaratorBoundary_withSource (start stop : Int) (next : Option String) :
    (src.withSource source offsets).declaratorBoundary start stop next =
      src.declaratorBoundary start stop next := by
  have hfrom : ∀ (name : String) (depth j : Int) (count : Nat),
      (src.withSource source offsets).boundaryFrom name depth j count =
        src.boundaryFrom name depth j count := by
    intro name depth j count
    induction count generalizing depth j with
    | zero => rfl
    | succ count ih =>
      simp only [boundaryFrom, ih]
      rfl
  simp only [declaratorBoundary, hfrom]

theorem behindBrackets_withSource (rounds : Nat) (j : Int) :
    (src.withSource source offsets).behindBrackets rounds j = src.behindBrackets rounds j := by
  induction rounds generalizing j with
  | zero => rfl
  | succ rounds ih =>
    simp only [behindBrackets, ih]
    rfl

theorem part_withSource (stop j : Int) (next : Option String) :
    (src.withSource source offsets).part stop j next = src.part stop j next := by
  simp only [part, declaratorBoundary_withSource]
  rfl

/-- Texts are cut out alike, if the parts of the two sources between two places are. -/
theorem agree_cut {R : WideString → WideString → Prop} (hempty : R "" "")
    (hslice : ∀ {first last : Int} {lo hi : Nat}, src.places first last = .ok (lo, hi) →
      Except.Agree R (src.slice lo hi) ((src.withSource source offsets).slice lo hi))
    (first last : Int) :
    Except.Agree R (src.cut first last) ((src.withSource source offsets).cut first last) := by
  rw [cut_eq, cut_eq]
  split
  · exact .ok hempty
  · exact .bind_same fun _ hplaces => hslice hplaces

/-! ### Initial values -/

theorem forall₂_none {α β γ : Type} {R : α → β → Prop} (l : List γ) :
    List.Forall₂ (Option.Rel R) (l.map fun _ => none) (l.map fun _ => none) := by
  induction l with
  | nil => exact .nil
  | cons c l ih => exact .cons .none ih

section
variable {α β : Type} {R : α → β → Prop} {read : Int → Int → Except SpanFault α}
  {read' : Int → Int → Except SpanFault β}
  (hread : ∀ first last, Except.Agree R (read first last) (read' first last))
include hread

theorem agree_range (range : Option (Int × Int)) :
    Except.Agree (Option.Rel R) (range.mapM fun range => read range.1 range.2)
      (range.mapM fun range => read' range.1 range.2) := by
  cases range with
  | none => exact .ok .none
  | some range => exact (hread range.1 range.2).bind fun h => .ok (.some h)

theorem agree_readInitializersFrom (stop i : Int) (names : List String) :
    Except.Agree (List.Forall₂ (Option.Rel R)) (src.readInitializersFrom read stop i names)
      ((src.withSource source offsets).readInitializersFrom read' stop i names) := by
  induction names generalizing i with
  | nil => exact .ok .nil
  | cons name others ih =>
    have hsame : (src.withSource source offsets).behindBrackets src.size (i + 1) =
      src.behindBrackets src.size (i + 1) := behindBrackets_withSource _ _
    cases hj : src.behindBrackets src.size (i + 1) with
    | error fault =>
      rw [readInitializersFrom_error hj, readInitializersFrom_error (hsame.trans hj)]
      exact .error fault
    | ok j =>
      rw [readInitializersFrom_cons hj, readInitializersFrom_cons (hsame.trans hj), part_withSource]
      refine (agree_range hread _).bind fun hvalue => ?_
      split
      · exact .ok (.cons hvalue (forall₂_none others))
      · exact (ih _).bind fun hvalues => .ok (.cons hvalue hvalues)

/-- **Initial values are read alike.** -/
theorem agree_readInitializers (position : Option Position) (declared : List (String × Bool)) :
    Except.Agree (List.Forall₂ (Option.Rel R)) (src.readInitializers read position declared)
      ((src.withSource source offsets).readInitializers read' position declared) := by
  simp only [readInitializers, firstDeclarator_withSource]
  split
  · exact .ok (forall₂_none declared)
  · refine .bind_same fun anchor _ => .bind_same fun stop _ => ?_
    split
    · exact .ok (forall₂_none declared)
    · exact agree_readInitializersFrom hread _ _ _

end

end TokenText

namespace Tree

open TokenText

/-! ### Nodes -/

section
variable {R : WideString → WideString → Prop} {src : TokenText} {source : List WideChar}
  {offsets : Option (List Nat)}
  (hcut : ∀ first last, Except.Agree R (src.cut first last)
    ((src.withSource source offsets).cut first last))
include hcut

theorem agree_pairTexts (last : Int) (pairs : List (ElementPair × Int)) :
    Except.Agree (List.Forall₂ fun p q => p.1 = q.1 ∧ R p.2 q.2) (pairTexts src last pairs)
      (pairTexts (src.withSource source offsets) last pairs) := by
  induction pairs with
  | nil => exact .ok .nil
  | cons pair rest ih =>
    simp only [pairTexts]
    exact (hcut _ _).bind fun hvalue => ih.bind fun hrest => .ok (.cons ⟨rfl, hvalue⟩ hrest)

theorem agree_annotationNode (a : AnnotationUse) :
    Except.Agree (AnnotationNode.Alike R) (a.node src) (a.node (src.withSource source offsets)) := by
  rw [AnnotationUse.node, AnnotationUse.node]
  cases a.element with
  | absent => exact .ok ⟨rfl, .none, .nil⟩
  | single value =>
    refine .bind_same fun range _ => ?_
    exact (hcut _ _).bind fun hvalue => .ok ⟨rfl, .some hvalue, .nil⟩
  | pairs pairs =>
    refine .bind_same fun range _ => .bind_same fun starts _ => ?_
    exact (agree_pairTexts hcut _ _).bind fun hpairs => .ok ⟨rfl, .none, hpairs⟩

theorem agree_annotationNodes (annotations : List AnnotationUse) :
    Except.Agree (List.Forall₂ (AnnotationNode.Alike R)) (annotationNodes src annotations)
      (annotationNodes (src.withSource source offsets) annotations) :=
  .mapM fun a _ => agree_annotationNode hcut a

variable (hempty : R "" "")
include hempty

theorem agree_parameterNode (p : Parameter) :
    Except.Agree (SourceNode.Alike R) (p.node src) (p.node (src.withSource source offsets)) :=
  (agree_annotationNodes hcut p.annotations).bind fun hannotations =>
    .ok (.intro rfl rfl rfl rfl hannotations rfl .nil .none rfl rfl rfl rfl rfl hempty)

omit hcut in
theorem alike_declaratorNodes (typeText : String) (ds : List Declarator)
    {values values' : List (Option WideString)} (h : List.Forall₂ (Option.Rel R) values values') :
    List.Forall₂ (SourceNode.Alike R) (List.zipWith (Declarator.node typeText) ds values)
      (List.zipWith (Declarator.node typeText) ds values') := by
  induction h generalizing ds with
  | nil =>
    rw [List.zipWith_nil_right]
    exact .nil
  | cons hvalue _ ih =>
    cases ds with
    | nil => exact .nil
    | cons d ds =>
      refine .cons (.intro rfl rfl rfl rfl .nil rfl .nil ?_ rfl rfl rfl rfl rfl hempty) (ih ds)
      show Option.Rel R (if d.initializer.isSome = true then _ else none)
        (if d.initializer.isSome = true then _ else none)
      split
      · exact hvalue
      · exact .none

theorem agree_fieldNode (header : Header) (type : TypeRef) (ds : List Declarator) :
    Except.Agree (SourceNode.Alike R) (fieldNode src header type ds)
      (fieldNode (src.withSource source offsets) header type ds) := by
  simp only [fieldNode, declarationStart_withSource]
  refine (agree_readInitializers hcut _ _).bind fun hvalues => ?_
  refine .bind_same fun anchor _ => .bind_same fun start _ => ?_
  refine (agree_annotationNodes hcut _).bind fun hannotations => .bind_same fun stop _ => ?_
  refine (hcut start stop).bind fun htext => .ok ?_
  exact .intro rfl rfl rfl rfl hannotations rfl (alike_declaratorNodes hempty _ ds hvalues) .none
    rfl rfl rfl rfl rfl htext

theorem agree_callableNode (kind : NodeKind) (label : String) (header : Header)
    (result : Option String) (callable : Callable) :
    Except.Agree (SourceNode.Alike R) (callableNode src kind label header result callable)
      (callableNode (src.withSource source offsets) kind label header result callable) := by
  simp only [callableNode, declarationStart_withSource]
  refine .bind_same fun anchor _ => .bind_same fun start _ => .bind_same fun stop _ => ?_
  refine (agree_annotationNodes hcut _).bind fun hannotations => ?_
  refine (Except.Agree.mapM fun p _ => agree_parameterNode hcut hempty p).bind fun hparameters => ?_
  exact (hcut start stop).bind fun htext =>
    .ok (.intro rfl rfl rfl rfl hannotations rfl hparameters .none rfl rfl rfl rfl rfl htext)

end

mutual

theorem agree_node {R : WideString → WideString → Prop} {src : TokenText} {source : List WideChar}
    {offsets : Option (List Nat)} (hempty : R "" "")
    (hcut : ∀ first last, Except.Agree R (src.cut first last)
      ((src.withSource source offsets).cut first last)) :
    (d : Declaration) → Except.Agree (SourceNode.Alike R) (d.node src)
      (d.node (src.withSource source offsets))
  | .mk header body => agree_bodyNode hempty hcut header body

theorem agree_bodyNode {R : WideString → WideString → Prop} {src : TokenText}
    {source : List WideChar} {offsets : Option (List Nat)} (hempty : R "" "")
    (hcut : ∀ first last, Except.Agree R (src.cut first last)
      ((src.withSource source offsets).cut first last)) (header : Header) :
    (body : Body) → Except.Agree (SourceNode.Alike R) (body.node src header)
      (body.node (src.withSource source offsets) header)
  | .field type ds => agree_fieldNode hcut hempty header type ds
  | .method result callable => agree_callableNode hcut hempty _ _ header _ callable
  | .constructor callable => agree_callableNode hcut hempty _ _ header _ callable
  | .type kind name typeParameters parents interfaces members extent => by
    simp only [Body.node, declarationStart_withSource]
    refine .bind_same fun anchor _ => .bind_same fun start _ => ?_
    refine (agree_annotationNodes hcut _).bind fun hannotations => ?_
    refine (agree_nodes hempty hcut members).bind fun hchildren => .bind_same fun stop _ => ?_
    refine (hcut start stop).bind fun htext => .ok ?_
    exact .intro rfl rfl rfl rfl hannotations rfl hchildren .none rfl rfl rfl rfl rfl htext

/-- **The nodes of declarations are alike, if texts that are cut between the same tokens are.** -/
theorem agree_nodes {R : WideString → WideString → Prop} {src : TokenText} {source : List WideChar}
    {offsets : Option (List Nat)} (hempty : R "" "")
    (hcut : ∀ first last, Except.Agree R (src.cut first last)
      ((src.withSource source offsets).cut first last)) :
    (ds : List Declaration) → Except.Agree (List.Forall₂ (SourceNode.Alike R))
      (Declaration.nodes src ds) (Declaration.nodes (src.withSource source offsets) ds)
  | [] => .ok .nil
  | d :: ds => by
    rw [Declaration.nodes, Declaration.nodes]
    refine (agree_node hempty hcut d).bind fun hnode => ?_
    exact (agree_nodes hempty hcut ds).bind fun hrest => .ok (.cons hnode hrest)

end

end Tree

end SourceDoc
