import SourceDoc.Proofs.Grammar.Declarations
import SourceDoc.Proofs.Grammar.UseLayout

/-!
# Where declarations stand

A declaration of the tree was read from tokens: modifiers and annotations, then a heading, and then a
body in braces, a semicolon, or the variables of a field and a semicolon.  `DeclarationAt` says which
tokens these are, and what heights they have: no brace and no semicolon on the way to the end of a
declaration stands outside brackets.
-/

namespace SourceDoc.Tree

/-! ### All declarations -/

/-- The part of a declaration that all kinds have. -/
def Declaration.header : Declaration → Header
  | .mk header _ => header

/-- What a declaration declares. -/
def Declaration.body : Declaration → Body
  | .mk _ body => body

/-- Whether a type is declared. -/
def Body.isType : Body → Bool
  | .type _ _ _ _ _ _ _ => true
  | _ => false

/-- The place of the brace that the members of a type stand behind. -/
def Body.opening : Body → Nat
  | .type _ _ _ _ _ _ extent => extent.first
  | _ => 0

/-- The annotations of the parameters of a method or constructor. -/
def Body.uses : Body → List AnnotationUse
  | .method _ callable => callable.parameters.flatMap (·.annotations)
  | .constructor callable => callable.parameters.flatMap (·.annotations)
  | _ => []

/-- The annotations of a declaration and of its parameters. -/
def Declaration.uses (d : Declaration) : List AnnotationUse := d.header.annotations ++ d.body.uses

mutual

/-- A declaration and all declarations nested in it. -/
def Declaration.all : Declaration → List Declaration
  | .mk header body => .mk header body :: body.nested

/-- All declarations nested in the body of a declaration. -/
def Body.nested : Body → List Declaration
  | .type _ _ _ _ _ members _ => Declaration.allOf members
  | .field _ _ => []
  | .method _ _ => []
  | .constructor _ => []

/-- Declarations and all declarations nested in them. -/
def Declaration.allOf : List Declaration → List Declaration
  | [] => []
  | declaration :: rest => declaration.all ++ Declaration.allOf rest

end

theorem Declaration.mem_all {d e : Declaration} :
    d ∈ e.all ↔ d = e ∨ d ∈ e.body.nested := by
  cases e with
  | mk header body => rw [Declaration.all, List.mem_cons, Declaration.body]

theorem Declaration.mem_allOf {d : Declaration} {ds : List Declaration} :
    d ∈ Declaration.allOf ds ↔ ∃ e ∈ ds, d ∈ e.all := by
  induction ds with
  | nil => simp [Declaration.allOf]
  | cons e ds ih => simp [Declaration.allOf, ih]

end SourceDoc.Tree

namespace SourceDoc.Grammar

open SourceDoc.Tree SourceDoc.Grammar.Parser SourceDoc.Token

/-! ### Counts -/

/-- All brackets count, and semicolons stand within some. -/
def Gauge.brackets : Gauge := ⟨1, 1, 1, 1, 0, by decide, by decide⟩

/-- Parentheses and square brackets count, and semicolons and braces stand within some. -/
def Gauge.heading : Gauge := ⟨1, 1, 0, 1, 1, by decide, by decide⟩

/-- Braces count. -/
def Gauge.braces : Gauge := ⟨0, 0, 1, 0, 0, by decide, by decide⟩

/-! ### Fronts -/

/-- Modifiers and annotations stand from one place to another. -/
inductive MarksAt (tokens : Array Token) : Nat → List AnnotationUse → Nat → Prop where
  | nil (i : Nat) : MarksAt tokens i [] i
  | modifier {i j : Nat} {t : Token} {uses : List AnnotationUse} (ht : tokens[i]? = some t)
      (hcls : t.cls = .modifier) (hrest : MarksAt tokens (i + 1) uses j) : MarksAt tokens i uses j
  | use {i j k : Nat} {t : Token} {use : AnnotationUse} {uses : List AnnotationUse}
      (ht : tokens[i]? = some t) (hcls : t.cls = .atSign) (hposition : use.position = some t.position)
      (hle : i ≤ k) (hrest : MarksAt tokens k uses j) : MarksAt tokens i (use :: uses) j

/-- Annotations stand among the tokens. -/
def AllUsed (tokens : Array Token) (uses : List AnnotationUse) : Prop :=
  ∀ use ∈ uses, ∃ i j, UseAt tokens i use j

/-- A declaration is anchored at a place, behind its modifiers and annotations. -/
structure HeaderAt (tokens : Array Token) (header : Header) (anchor : Nat) : Prop where
  /-- No modifier stands before the declaration. -/
  settled : Settled tokens header.extent.first
  /-- Modifiers and annotations come first. -/
  marks : MarksAt tokens header.extent.first header.annotations anchor
  /-- The position is that of the token behind them. -/
  position : ∃ t, tokens[anchor]? = some t ∧ header.position = some t.position

/-! ### Bodies -/

/-- A range in braces: its own braces are the outermost, and what stands in them is no lower than
their start. -/
structure Braced (tokens : Array Token) (extent : Extent) : Prop where
  /-- An opening brace comes first. -/
  opener : Stands tokens extent.first openBrace
  /-- A closing brace comes last. -/
  closer : ∃ last, extent.stop = last + 1 ∧ Stands tokens last closeBrace ∧
    Rises .braces tokens (extent.first + 1) last
  /-- Outside parentheses and square brackets it is no lower than its start. -/
  remains : Remains .heading tokens extent.first extent.stop

/-- A variable stands between two places. -/
structure DeclaratorAt (tokens : Array Token) (i : Nat) (d : Declarator) (j : Nat) : Prop where
  /-- Its name comes first. -/
  name : ∃ t, tokens[i]? = some t ∧ t.cls = .identifier ∧ t.value = d.name
  /-- Dimensions follow. -/
  dimensions : Pairs tokens (i + 1) d.dimensions
  /-- Without an initial value there is nothing else. -/
  absent : d.initializer = none → j = i + 1 + 2 * d.dimensions
  /-- An initial value stands behind an equals sign. -/
  value : ∀ x, d.initializer = some x → Stands tokens (i + 1 + 2 * d.dimensions) "=" ∧
    x = ⟨i + 2 + 2 * d.dimensions, j⟩ ∧ Rises .brackets tokens (i + 2 + 2 * d.dimensions) j

/-- Variables stand between two places, with commas between them. -/
inductive DeclaratorsAt (tokens : Array Token) : Nat → List Declarator → Nat → Prop where
  | last {i j : Nat} {d : Declarator} (h : DeclaratorAt tokens i d j) : DeclaratorsAt tokens i [d] j
  | more {i j k : Nat} {d : Declarator} {ds : List Declarator} (h : DeclaratorAt tokens i d k)
      (hcomma : Stands tokens k ",") (hrest : DeclaratorsAt tokens (k + 1) ds j) :
      DeclaratorsAt tokens i (d :: ds) j

/-- A field is anchored at a place and ends at a semicolon. -/
structure FieldAt (tokens : Array Token) (anchor : Nat) (type : TypeRef) (ds : List Declarator)
    (last : Nat) : Prop where
  /-- Its type, and then its variables. -/
  parts : ∃ i, TypeAt tokens anchor type i ∧ DeclaratorsAt tokens i ds last
  /-- A semicolon comes last. -/
  semicolon : Stands tokens last ";"

/-- A heading is anchored at a place, and a body or a semicolon follows it. -/
def CallableAt (tokens : Array Token) (anchor stop : Nat) : Option Extent → Prop
  | some extent => Rises .heading tokens anchor extent.first ∧ Braced tokens extent ∧
      stop = extent.stop
  | none => ∃ last, Rises .heading tokens anchor last ∧ Stands tokens last ";" ∧ stop = last + 1

/-- What a declaration declares is anchored at a place and ends before another. -/
def BodyAt (tokens : Array Token) (anchor stop : Nat) : Body → Prop
  | .field type ds => ∃ last, FieldAt tokens anchor type ds last ∧ stop = last + 1
  | .method _ callable => CallableAt tokens anchor stop callable.body
  | .constructor callable => CallableAt tokens anchor stop callable.body
  | .type _ _ _ _ _ _ extent => Nested tokens anchor extent.first ∧ Braced tokens extent ∧
      stop = extent.stop

/-- A declaration stands where its extent says. -/
def DeclarationAt (tokens : Array Token) (d : Declaration) : Prop :=
  ∃ anchor, HeaderAt tokens d.header anchor ∧ BodyAt tokens anchor d.header.extent.stop d.body

variable {tokens : Array Token} {parse : Descend} {i j : Nat}

/-- What stands in the braces of a body is higher than the body. -/
theorem Braced.lt_height {extent : Extent} (h : Braced tokens extent) (hlo : extent.first < i)
    (hhi : i < extent.stop) : height .braces tokens extent.first < height .braces tokens i := by
  obtain ⟨t, ht, hvalue⟩ := h.opener
  obtain ⟨last, hstop, -, hrises⟩ := h.closer
  have hfirst := height_succ (m := .braces) ht
  rw [hvalue, Gauge.weight_openBrace] at hfirst
  change _ = _ + (1 : Int) at hfirst
  rcases Nat.eq_or_lt_of_le (show i ≤ last by omega) with rfl | hlt
  · have := hrises.above
    omega
  · obtain ⟨u, -, hdemand⟩ := hrises.clear i hlo hlt
    dsimp only at hdemand
    omega

/-! ### Fronts of declarations -/

theorem exists_of_seesAnnotationAt {c c' : Cursor}
    (h : seesAnnotationAt 0 tokens c = .done true c') :
    ∃ t, tokens[c.next]? = some t ∧ t.cls = .atSign := by
  obtain ⟨sign, c₁, hsign, h⟩ := bind_eq_done h
  cases hsign
  obtain ⟨word, c₂, -, h⟩ := bind_eq_done h
  have hboth := (Reply.done.inj h).1
  rw [Bool.and_eq_true] at hboth
  obtain ⟨t, ht, hcls⟩ := (Option.any_eq_true _ _).1 hboth.1
  exact ⟨t, ht, beq_iff_eq.1 hcls⟩

section
variable (hp : Kept tokens parse)
  (huse : ∀ c, Ensures tokens (parse .annotationUse) c fun use c' => UseAt tokens c.next use c'.next)
include hp huse

/-- What one round of a front reads. -/
theorem ensures_front_step (c : Cursor) :
    Ensures tokens (do
      if ← seesClass .modifier then return some (.modifier (← expect (.ofClass .modifier)))
      else if ← seesAnnotationAt 0 then return some (.use (← parse .annotationUse))
      else return none) c fun found c' => AllUsed tokens (Mark.annotations found.toList) ∧
        ∀ uses j, MarksAt tokens c'.next uses j →
          MarksAt tokens c.next (Mark.annotations found.toList ++ uses) j := by
  refine .ifPeek (peeks_seesClass _) (fun _ => ?_) fun _ => ?_
  · refine .expect fun t ht hfits => ensures_pure ⟨nofun, fun uses j hrest => ?_⟩
    exact .modifier ht (beq_iff_eq.1 hfits) hrest
  refine .ifPeek (peeks_seesAnnotationAt 0) (fun hsees => ?_)
    (fun _ => ensures_pure ⟨nofun, fun _ _ h => h⟩)
  obtain ⟨t, ht, hcls⟩ := exists_of_seesAnnotationAt hsees
  refine .bind fun use c' hrun => ensures_pure ⟨?_, fun uses j hrest => ?_⟩
  · intro use' huse'
    obtain rfl := List.mem_singleton.1 huse'
    exact ⟨_, _, huse c _ _ hrun⟩
  have hposition := (huse c _ _ hrun).position
  rw [ht] at hposition
  have hrises : Rises .braces tokens c.next c'.next :=
    (hp.keeps .annotationUse (Nat.zero_le _) (Nat.zero_le _)).rises hrun
  exact .use ht hcls hposition hrises.le hrest

theorem ensures_front (c : Cursor) :
    Ensures tokens (front parse) c fun front c' => front.first = c.next ∧
      MarksAt tokens c.next (Mark.annotations front.marks) c'.next ∧
      AllUsed tokens (Mark.annotations front.marks) := by
  refine .peek peeks_index fun first hfirst => .peek (peeks_look 0) fun token hlook => ?_
  refine .bind fun marks c' hrun => ensures_pure ⟨?_, ?_⟩
  · cases hfirst
    rfl
  have hrounds := rounds_of_collect hrun
  clear hrun hfirst hlook
  induction hrounds with
  | last h => exact ⟨(ensures_front_step hp huse _ _ _ h).2 [] _ (.nil _), nofun⟩
  | @next mark marks c c₁ c' h _ ih =>
    obtain ⟨hused, hmarks⟩ := ensures_front_step hp huse _ _ _ h
    have hmarks := hmarks _ _ ih.1
    cases mark with
    | modifier word => exact ⟨hmarks, ih.2⟩
    | use use => exact ⟨hmarks, List.forall_mem_cons.2 ⟨hused _ List.mem_cons_self, ih.2⟩⟩

omit hp in
/-- What may stand in front of a variable. -/
theorem ensures_variableFront (c : Cursor) : Ensures tokens (variableFront parse) c fun marks _ =>
    AllUsed tokens (Mark.annotations marks) := by
  have hstep : ∀ c, Ensures tokens (do
      if ← takesText "final" then return some (.modifier "final")
      else if ← seesAnnotationAt 0 then return some (.use (← parse .annotationUse))
      else return none) c fun found _ => AllUsed tokens (Mark.annotations found.toList) := by
    refine fun c => .ifTakesText (fun _ => ensures_pure nofun) ?_
    refine .ifPeek (peeks_seesAnnotationAt 0) (fun _ => ?_) (fun _ => ensures_pure nofun)
    refine .bind fun use c' hrun => ensures_pure fun use' huse' => ?_
    obtain rfl := List.mem_singleton.1 huse'
    exact ⟨_, _, huse c _ _ hrun⟩
  intro marks c' hrun
  have hrounds := rounds_of_collect hrun
  clear hrun
  induction hrounds with
  | last h => exact nofun
  | @next mark marks c c₁ c' h _ ih =>
    have hused := hstep _ _ _ h
    cases mark with
    | modifier word => exact ih
    | use use => exact List.forall_mem_cons.2 ⟨hused _ List.mem_cons_self, ih⟩

omit hp in
/-- **The annotations of parameters stand among the tokens.** -/
theorem ensures_parameters (c : Cursor) : Ensures tokens (parameters parse) c fun ps _ =>
    AllUsed tokens (ps.flatMap (·.annotations)) := by
  have hparameter : ∀ c, Ensures tokens (parameter parse) c fun p _ =>
      AllUsed tokens p.annotations := by
    refine fun c => .bind fun marks c₁ hrun => .bind fun _ _ _ => .bind fun _ _ _ => ?_
    refine .bind fun _ _ _ => .bind fun _ _ _ => ensures_pure ?_
    exact ensures_variableFront huse _ _ _ hrun
  refine .symbol fun _ => .ifTakesText (fun _ => ensures_pure nofun) ?_
  refine .bind fun first c₁ hrun => .bind fun all c₂ hchain => .symbol fun hclose => ensures_pure ?_
  have hfirst := hparameter _ _ _ hrun
  have hlinks := links_of_chain hchain
  clear hclose hchain hrun
  induction hlinks with
  | last =>
    rw [List.flatMap_singleton]
    exact hfirst
  | @next p q ps c c₁ c' h _ ih =>
    have hnext : Ensures tokens (do
        if p.varargs then return none
        if ← takesText "," then return some (← parameter parse) else return none) c fun found _ =>
          ∀ q ∈ found, AllUsed tokens q.annotations := by
      split
      · exact ensures_pure nofun
      · refine .ifTakesText (fun _ => .bind fun q _ hrun => ensures_pure ?_) (ensures_pure nofun)
        rintro _ ⟨⟩
        exact hparameter _ _ _ hrun
    rw [List.flatMap_cons]
    exact List.forall_mem_append.2 ⟨hfirst, ih (hnext _ _ h q rfl)⟩

end

/-! ### What the parsers of nested rules read -/

/-- A declaration within another one, whose members stand between two places. -/
structure Inner (tokens : Array Token) (i j : Nat) (d : Declaration) : Prop where
  /-- It stands where its extent says. -/
  layout : DeclarationAt tokens d
  /-- Its annotations stand among the tokens. -/
  used : AllUsed tokens d.uses
  /-- It begins behind the first place. -/
  first : i < d.header.extent.first
  /-- It ends before the second place. -/
  stop : d.header.extent.stop < j
  /-- What follows it there is as high as it. -/
  remains : Remains .heading tokens d.header.extent.stop j

/-- A body was read that is anchored at a place. -/
structure Reads (tokens : Array Token) (anchor : Nat) (body : Body) (c' : Cursor) : Prop where
  /-- It stands where it was read. -/
  layout : BodyAt tokens anchor c'.next body
  /-- The annotations of its parameters stand among the tokens. -/
  used : AllUsed tokens body.uses
  /-- What is nested in it stands within its braces. -/
  nested : ∀ d ∈ body.nested, Inner tokens body.opening c'.next d

/-- A type was read that is anchored at a place. -/
def ReadsType (tokens : Array Token) (anchor : Nat) (body : Body) (c' : Cursor) : Prop :=
  Reads tokens anchor body c' ∧ body.isType = true

/-- A declaration was read from one place to another, with all that is nested in it. -/
structure ReadsDeclaration (tokens : Array Token) (i : Nat) (d : Declaration) (c' : Cursor) :
    Prop where
  /-- It stands where its extent says. -/
  layout : DeclarationAt tokens d
  /-- Its annotations stand among the tokens. -/
  used : AllUsed tokens d.uses
  /-- Its extent is what was read. -/
  extent : d.header.extent = ⟨i, c'.next⟩
  /-- What is nested in it stands within its braces. -/
  nested : ∀ e ∈ d.body.nested, Inner tokens d.body.opening c'.next e

/-- What the parsers of the rules give is laid out as said. -/
structure Lays (tokens : Array Token) (parse : Descend) : Prop where
  /-- The rules keep their heights. -/
  kept : Kept tokens parse
  /-- Chains of names. -/
  reference : ∀ c, Ensures tokens (parse .reference) c fun segments c' =>
    ReferenceAt tokens c.next segments c'.next
  /-- Annotations. -/
  use : ∀ c, Ensures tokens (parse .annotationUse) c fun use c' => UseAt tokens c.next use c'.next
  /-- Blocks. -/
  block : ∀ c, Ensures tokens (parse .block) c fun _ c' => Braced tokens ⟨c.next, c'.next⟩
  /-- Bodies of types, with all that is nested in them. -/
  members : ∀ kind c, Ensures tokens (parse (.members kind)) c fun ds c' =>
    Braced tokens ⟨c.next, c'.next⟩ ∧ ∀ d ∈ Declaration.allOf ds, Inner tokens c.next c'.next d
  /-- Type declarations, which cannot be read everywhere. -/
  typeDeclaration : ∀ c, Ensures tokens (parse .typeDeclaration) c fun d c' =>
    ¬ Misfit tokens c.next ∧
      (Settled tokens c.next → ReadsDeclaration tokens c.next d c' ∧ d.body.isType = true)

variable {anchor : Nat} {c : Cursor}

/-! ### Fields -/

section
variable (hp : Lays tokens parse)
include hp

/-- An initial value is as high as semicolons demand of it. -/
theorem Lays.rises_initializer {v : Unit} {c' : Cursor}
    (hrun : parse .initializer tokens c = .done v c') : Rises .brackets tokens c.next c'.next :=
  (hp.kept.keeps .initializer (Nat.zero_le _) (Nat.zero_le _)).rises hrun

theorem ensures_declaratorRest {t : Token} (ht : tokens[i]? = some t) (hcls : t.cls = .identifier)
    (hc : c.next = i + 1) : Ensures tokens (declaratorRest parse) c fun rest c' =>
      DeclaratorAt tokens i ⟨t.value, rest.1, rest.2⟩ c'.next := by
  refine .bind fun n c₁ hdimensions => ?_
  obtain ⟨hpairs, hnext⟩ := ensures_dimensions _ _ _ hdimensions
  rw [hc] at hpairs hnext
  refine .ifTakesText (fun hequals => ?_) (ensures_pure ?_)
  · rw [hnext] at hequals
    refine .measured fun v c' hrun => ensures_pure ⟨⟨t, ht, hcls, rfl⟩, hpairs, nofun, ?_⟩
    rintro x ⟨⟩
    rw [show i + 2 + 2 * n = c₁.next + 1 by omega]
    exact ⟨hequals, rfl, hp.rises_initializer hrun⟩
  · exact ⟨⟨t, ht, hcls, rfl⟩, hpairs, fun _ => hnext, nofun⟩

theorem ensures_declarator (c : Cursor) : Ensures tokens (declarator parse) c fun d c' =>
    DeclaratorAt tokens c.next d c'.next :=
  .expect fun _ ht hfits => .bind fun _ _ hrun => ensures_pure <|
    ensures_declaratorRest hp ht (beq_iff_eq.1 hfits) rfl _ _ hrun

theorem ensures_constantRest {t : Token} (ht : tokens[i]? = some t) (hcls : t.cls = .identifier)
    (hc : c.next = i + 1) : Ensures tokens (constantRest parse t.value) c fun d c' =>
      DeclaratorAt tokens i d c'.next := by
  refine .bind fun n c₁ hdimensions => ?_
  obtain ⟨hpairs, hnext⟩ := ensures_dimensions _ _ _ hdimensions
  rw [hc] at hpairs hnext
  refine .symbol fun hequals => .measured fun v c' hrun => ensures_pure ?_
  rw [hnext] at hequals
  refine ⟨⟨t, ht, hcls, rfl⟩, hpairs, nofun, ?_⟩
  rintro x ⟨⟩
  rw [show i + 2 + 2 * n = c₁.next + 1 by omega]
  exact ⟨hequals, rfl, hp.rises_initializer hrun⟩

theorem ensures_constant (c : Cursor) : Ensures tokens (constant parse) c fun d c' =>
    DeclaratorAt tokens c.next d c'.next :=
  .expect fun _ ht hfits => ensures_constantRest hp ht (beq_iff_eq.1 hfits) rfl

omit hp in
/-- Further variables behind a first one. -/
theorem ensures_further {item : Parser Declarator} {first : Declarator}
    (hitem : ∀ c, Ensures tokens item c fun d c' => DeclaratorAt tokens c.next d c'.next)
    (hfirst : DeclaratorAt tokens i first c.next) :
    Ensures tokens (chain (fun _ => do
      if ← takesText "," then return some (← item) else return none) first) c fun ds c' =>
        DeclaratorsAt tokens i ds c'.next := by
  intro ds c' hrun
  have hlinks := links_of_chain hrun
  clear hrun
  induction hlinks generalizing i with
  | last h =>
    rw [(ensures_next _ _ h).1 rfl]
    exact .last hfirst
  | next h _ ih =>
    obtain ⟨hcomma, hrun⟩ := (ensures_next _ _ h).2 _ rfl
    exact .more hfirst hcomma (ih (hitem _ _ _ hrun))

theorem ensures_fieldRest {type : TypeRef} {t : Token} (htype : TypeAt tokens anchor type i)
    (ht : tokens[i]? = some t) (hcls : t.cls = .identifier) (hc : c.next = i + 1) :
    Ensures tokens (fieldRest parse type t.value) c (Reads tokens anchor) := by
  refine .bind fun rest c₁ hrest => .bind fun ds c₂ hfurther => .symbol fun hsemicolon => ?_
  have hfirst := ensures_declaratorRest hp ht hcls hc _ _ hrest
  have hall := ensures_further (ensures_declarator hp) hfirst _ _ hfurther
  exact ensures_pure ⟨⟨c₂.next, ⟨⟨i, htype, hall⟩, hsemicolon⟩, rfl⟩, nofun, nofun⟩

theorem ensures_constantsRest {type : TypeRef} {t : Token} (htype : TypeAt tokens anchor type i)
    (ht : tokens[i]? = some t) (hcls : t.cls = .identifier) (hc : c.next = i + 1) :
    Ensures tokens (constantsRest parse type t.value) c fun body c' =>
      Stands tokens c'.next ";" → Reads tokens anchor body { c' with next := c'.next + 1 } := by
  refine .bind fun first c₁ hrun => .bind fun ds c₂ hfurther => ensures_pure fun hsemicolon => ?_
  have hfirst := ensures_constantRest hp ht hcls hc _ _ hrun
  have hall := ensures_further (ensures_constant hp) hfirst _ _ hfurther
  exact ⟨⟨c₂.next, ⟨⟨i, htype, hall⟩, hsemicolon⟩, rfl⟩, nofun, nofun⟩

/-! ### Methods and constructors -/

theorem ensures_throws (hhead : Rises .heading tokens anchor c.next) :
    Ensures tokens throwsClause c fun _ c' => Rises .heading tokens anchor c'.next :=
  fun _ _ hrun => hhead.trans ((keeps_throwsClause hp.kept.proper).rises hrun)

theorem ensures_methodTail (hhead : Rises .heading tokens anchor c.next) :
    Ensures tokens (methodTail parse) c fun tail c' =>
      CallableAt tokens anchor c'.next tail.2 := by
  refine .bind fun throws c₁ hthrows => ?_
  have hhead := ensures_throws hp hhead _ _ hthrows
  refine .ifPeek (peeks_seesText _) (fun _ => ?_) fun _ => ?_
  · exact .measured fun v c' hrun => ensures_pure ⟨hhead, hp.block _ _ _ hrun, rfl⟩
  · exact .symbol fun hsemicolon => ensures_pure ⟨c₁.next, hhead, hsemicolon, rfl⟩

theorem ensures_voidMethod (hhead : Rises .heading tokens anchor c.next)
    (typeParameters : List String) :
    Ensures tokens (voidMethod parse typeParameters) c (Reads tokens anchor) := by
  refine .bind fun name c₁ hname => .bind fun parameters c₂ hparameters => ?_
  have hhead := (hhead.trans ((keeps_identifier hp.kept.proper).rises hname)).trans
    ((keeps_parameters hp.kept le_rfl).rises hparameters)
  exact .bind fun tail c' htail => ensures_pure
    ⟨ensures_methodTail hp hhead _ _ htail, ensures_parameters hp.use _ _ _ hparameters, nofun⟩

theorem ensures_methodRest (hhead : Rises .heading tokens anchor c.next) (result : TypeRef)
    (name : String) (typeParameters : List String) :
    Ensures tokens (methodRest parse result name typeParameters) c (Reads tokens anchor) := by
  refine .bind fun parameters c₁ hparameters => .bind fun behind c₂ hbehind => ?_
  have hhead := (hhead.trans ((keeps_parameters hp.kept le_rfl).rises hparameters)).trans
    (keeps_dimensions.rises hbehind)
  exact .bind fun tail c' htail => ensures_pure
    ⟨ensures_methodTail hp hhead _ _ htail, ensures_parameters hp.use _ _ _ hparameters, nofun⟩

theorem ensures_constructorRest (hhead : Rises .heading tokens anchor c.next)
    (typeParameters : List String) :
    Ensures tokens (constructorRest parse typeParameters) c (Reads tokens anchor) := by
  refine .bind fun name c₁ hname => .bind fun parameters c₂ hparameters => ?_
  refine .bind fun throws c₃ hthrows => ?_
  have hhead := ensures_throws hp ((hhead.trans ((keeps_identifier hp.kept.proper).rises hname)).trans
    ((keeps_parameters hp.kept le_rfl).rises hparameters)) _ _ hthrows
  exact .measured fun v c' hrun => ensures_pure
    ⟨⟨hhead, hp.block _ _ _ hrun, rfl⟩, ensures_parameters hp.use _ _ _ hparameters, nofun⟩

/-! ### Types -/

theorem ensures_typeRest {kind : DeclarationKind} {name : String} {typeParameters : List String}
    {parents interfaces : List TypeRef} (hhead : Nested tokens anchor c.next) :
    Ensures tokens (do
      let (members, extent) ← measured (parse (.members kind))
      return .type kind name typeParameters parents interfaces members extent) c
        (ReadsType tokens anchor) := by
  refine .measured fun members c' hrun => ensures_pure ?_
  obtain ⟨hbraced, hinner⟩ := hp.members kind _ _ _ hrun
  exact ⟨⟨⟨hhead, hbraced, rfl⟩, nofun, hinner⟩, rfl⟩

/-- The word of a type declaration and its name. -/
theorem ensures_named {α : Type} {word : String} {rest : String → Parser α} {Q : α → Cursor → Prop}
    (hword : word ∉ notWords)
    (hrest : ∀ name c', Nested tokens c.next c'.next → Ensures tokens (rest name) c' Q) :
    Ensures tokens (do symbol word; rest (← identifier)) c Q := by
  refine .bind fun _ c₁ hrun => .bind fun name c₂ hname => hrest name c₂ ?_
  exact (nests_symbol hword _ _ _ hrun).trans (nests_identifier hp.kept.proper _ _ _ hname)

/-- A list of types behind a word, if that word comes next. -/
theorem ensures_typeList? {α : Type} {word : String} {rest : List TypeRef → Parser α}
    {Q : α → Cursor → Prop} (hword : word ∉ notWords) (hhead : Nested tokens anchor c.next)
    (hrest : ∀ types c', Nested tokens anchor c'.next → Ensures tokens (rest types) c' Q) :
    Ensures tokens (do
      let types ← if ← takesText word then typeList parse else pure []
      rest types) c Q := by
  refine .ifTakesText (fun hstands => .bind fun types c' hrun => hrest types c' ?_)
    (hrest [] c hhead)
  exact (hhead.trans (hstands.nested hword)).trans
    (nests_typeList hp.kept.proper hp.reference _ _ _ hrun)

theorem ensures_classDeclaration :
    Ensures tokens (classDeclaration parse) c (ReadsType tokens c.next) := by
  refine ensures_named hp (by decide) fun name c₁ hhead => .bind fun typeParameters c₂ hrun => ?_
  have hhead := hhead.trans (nests_typeParameters? hp.kept.proper hp.reference _ _ _ hrun)
  refine .ifTakesText (fun hextends => .bind fun parents c₃ hrun => ?_) ?_
  · have hhead := (hhead.trans (hextends.nested (by decide))).trans
      ((nests_type hp.kept.proper hp.reference).map _ _ _ hrun)
    exact ensures_typeList? hp (by decide) hhead fun interfaces c' h => ensures_typeRest hp h
  · exact ensures_typeList? hp (by decide) hhead fun interfaces c' h => ensures_typeRest hp h

theorem ensures_enumDeclaration :
    Ensures tokens (enumDeclaration parse) c (ReadsType tokens c.next) :=
  ensures_named hp (by decide) fun _ _ hhead =>
    ensures_typeList? hp (by decide) hhead fun _ _ h => ensures_typeRest hp h

theorem ensures_interfaceDeclaration :
    Ensures tokens (interfaceDeclaration parse) c (ReadsType tokens c.next) := by
  refine ensures_named hp (by decide) fun name c₁ hhead => .bind fun typeParameters c₂ hrun => ?_
  have hhead := hhead.trans (nests_typeParameters? hp.kept.proper hp.reference _ _ _ hrun)
  exact ensures_typeList? hp (by decide) hhead fun _ _ h => ensures_typeRest hp h

theorem ensures_annotationDeclaration :
    Ensures tokens (annotationDeclaration parse) c (ReadsType tokens c.next) := by
  refine .symbol fun hsign => ensures_named hp (by decide) fun name c₁ hhead => ?_
  exact ensures_typeRest hp ((hsign.nested (by decide)).trans hhead)

/-- **A type declaration is read from its first token on, if one comes next.** -/
theorem ensures_typeBody? : Ensures tokens (typeBody? parse) c fun found c' =>
    (found = none → c' = c) ∧ ∀ body, found = some body → ReadsType tokens c.next body c' := by
  have hsome : ∀ {p : Parser Body}, Ensures tokens p c (ReadsType tokens c.next) →
      Ensures tokens (do return some (← p)) c fun found c' => (found = none → c' = c) ∧
        ∀ body, found = some body → ReadsType tokens c.next body c' := by
    refine fun hbody => .bind fun body c' hrun => ensures_pure ⟨nofun, fun _ h => ?_⟩
    rw [← Option.some.inj h]
    exact hbody _ _ hrun
  refine .ifPeek (peeks_seesText _) (fun _ => hsome (ensures_classDeclaration hp)) fun _ => ?_
  refine .ifPeek (peeks_seesText _) (fun _ => hsome (ensures_enumDeclaration hp)) fun _ => ?_
  refine .ifPeek (peeks_seesText _) (fun _ => hsome (ensures_interfaceDeclaration hp)) fun _ => ?_
  exact .ifPeek peeks_seesAnnotationType (fun _ => hsome (ensures_annotationDeclaration hp))
    fun _ => ensures_pure ⟨fun _ => rfl, nofun⟩

end

end SourceDoc.Grammar
