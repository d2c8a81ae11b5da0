import SourceDoc.Proofs.Grammar.Layout

/-!
# Where the declarations of a unit stand

Every declaration of a unit, nested ones included, stands where its extent says
(`declarationAt_of_parseUnit`).  Members begin behind a brace or a semicolon, so no modifier stands
before them; the first declaration of a unit may be read from a place that reading went back to, and
there either no modifier stands before it or no declaration can be read.
-/

namespace SourceDoc.Grammar

open SourceDoc.Tree SourceDoc.Grammar.Parser SourceDoc.Token

variable {tokens : Array Token} {parse : Descend} {i j anchor : Nat} {c : Cursor}

/-! ### Ends of declarations -/

/-- The name and the dimensions of a variable. -/
theorem DeclaratorAt.nested {d : Declarator} (h : DeclaratorAt tokens i d j)
    (hproper : ∀ t ∈ tokens, Proper t) : Nested tokens i (i + 1 + 2 * d.dimensions) := by
  obtain ⟨t, ht, hcls, -⟩ := h.name
  exact (nested_of_class hproper ht (by rw [hcls]; decide)).trans h.dimensions.nested

theorem DeclaratorAt.rises {d : Declarator} (h : DeclaratorAt tokens i d j)
    (hproper : ∀ t ∈ tokens, Proper t) : Rises .brackets tokens i j := by
  have hname := (h.nested hproper).rises .brackets
  cases hd : d.initializer with
  | none =>
    rw [h.absent hd]
    exact hname
  | some x =>
    obtain ⟨hequals, -, hvalue⟩ := h.value x hd
    have hequals := (hequals.nested (by decide)).rises .brackets
    rw [show i + 1 + 2 * d.dimensions + 1 = i + 2 + 2 * d.dimensions by omega] at hequals
    exact (hname.trans hequals).trans hvalue

theorem DeclaratorsAt.rises {ds : List Declarator} (h : DeclaratorsAt tokens i ds j)
    (hproper : ∀ t ∈ tokens, Proper t) : Rises .brackets tokens i j := by
  induction h with
  | last h => exact h.rises hproper
  | more h hcomma _ ih =>
    exact ((h.rises hproper).trans ((hcomma.nested (by decide)).rises _)).trans ih

theorem FieldAt.rises {type : TypeRef} {ds : List Declarator} {last : Nat}
    (h : FieldAt tokens anchor type ds last) (hproper : ∀ t ∈ tokens, Proper t) :
    Rises .brackets tokens anchor last := by
  obtain ⟨k, htype, hds⟩ := h.parts
  exact ((htype.nested hproper).rises _).trans (hds.rises hproper)

/-- What a declaration declares ends with a brace or a semicolon. -/
theorem BodyAt.closer {body : Body} {stop : Nat} (h : BodyAt tokens anchor stop body)
    (hproper : ∀ t ∈ tokens, Proper t) :
    ∃ last value, stop = last + 1 ∧ anchor ≤ last ∧ Stands tokens last value ∧
      value ∈ [closeBrace, ";"] := by
  have hbraced : ∀ {extent : Extent}, anchor ≤ extent.first → Braced tokens extent →
      ∃ last value, extent.stop = last + 1 ∧ anchor ≤ last ∧ Stands tokens last value ∧
        value ∈ [closeBrace, ";"] := by
    intro extent hle hbraced
    obtain ⟨last, hstop, hstands, hrises⟩ := hbraced.closer
    have := hrises.le
    exact ⟨last, closeBrace, hstop, by omega, hstands, by decide⟩
  have hcallable : ∀ {found : Option Extent}, CallableAt tokens anchor stop found →
      ∃ last value, stop = last + 1 ∧ anchor ≤ last ∧ Stands tokens last value ∧
        value ∈ [closeBrace, ";"] := by
    intro found h
    cases found with
    | none =>
      obtain ⟨last, hrises, hstands, rfl⟩ := h
      exact ⟨last, ";", rfl, hrises.le, hstands, by decide⟩
    | some extent =>
      obtain ⟨hrises, hext, rfl⟩ := h
      exact hbraced hrises.le hext
  cases body with
  | field type ds =>
    obtain ⟨last, hfield, rfl⟩ := h
    exact ⟨last, ";", rfl, (hfield.rises hproper).le, hfield.semicolon, by decide⟩
  | method result callable => exact hcallable h
  | constructor callable => exact hcallable h
  | type kind name typeParameters parents interfaces members extent =>
    obtain ⟨hnested, hext, rfl⟩ := h
    exact hbraced (hnested.rises .braces).le hext

theorem BodyAt.settled {body : Body} {stop : Nat} (h : BodyAt tokens anchor stop body)
    (hproper : ∀ t ∈ tokens, Proper t) : Settled tokens stop := by
  obtain ⟨last, value, rfl, -, hstands, hvalue⟩ := h.closer hproper
  refine hstands.settled hproper ?_
  have hmarks : ∀ v ∈ [closeBrace, ";"], v ∈ marks.map String.singleton := by decide
  exact hmarks _ hvalue

theorem MarksAt.le {uses : List AnnotationUse} (h : MarksAt tokens i uses j) : i ≤ j := by
  induction h with
  | nil => exact le_rfl
  | modifier _ _ _ ih => omega
  | use _ _ _ hle _ ih => exact hle.trans ih

/-- The members of a type stand behind its start. -/
theorem DeclarationAt.first_le_opening {d : Declaration} (h : DeclarationAt tokens d)
    (htype : d.body.isType = true) : d.header.extent.first ≤ d.body.opening := by
  obtain ⟨anchor, hheader, hbody⟩ := h
  cases hd : d.body with
  | type kind name typeParameters parents interfaces members extent =>
    rw [hd] at hbody
    exact hheader.marks.le.trans (hbody.1.rises .braces).le
  | field => rw [hd] at htype; cases htype
  | method => rw [hd] at htype; cases htype
  | constructor => rw [hd] at htype; cases htype

/-- Only types have something nested in them. -/
theorem isType_of_mem_nested {d : Declaration} {body : Body} (h : d ∈ body.nested) :
    body.isType = true := by
  cases body with
  | type => rfl
  | field => cases h
  | method => cases h
  | constructor => cases h

/-- A token stands where a declaration is anchored. -/
theorem BodyAt.anchored {body : Body} {stop : Nat} (h : BodyAt tokens anchor stop body)
    (hproper : ∀ t ∈ tokens, Proper t) : ∃ t, tokens[anchor]? = some t := by
  obtain ⟨last, value, -, hle, ⟨t, ht, -⟩, -⟩ := h.closer hproper
  have hlast := (Array.getElem?_eq_some_iff.1 ht).1
  exact ⟨_, Array.getElem?_eq_getElem (Nat.lt_of_le_of_lt hle hlast)⟩

/-! ### Members -/

section
variable (hp : Lays tokens parse)
include hp

/-- A type and a name, and what comes behind them. -/
theorem ensures_typed {α : Type} {rest : TypeRef → String → Parser α} {Q : α → Cursor → Prop}
    (hhead : Nested tokens anchor c.next)
    (hrest : ∀ {i : Nat} {type : TypeRef} {t : Token} {c' : Cursor}, tokens[i]? = some t →
      t.cls = .identifier → c'.next = i + 1 → TypeAt tokens c.next type i →
      Nested tokens anchor c'.next → Ensures tokens (rest type t.value) c' Q) :
    Ensures tokens (do
      let type ← type parse
      let name ← identifier
      rest type name) c Q := by
  refine .bind fun type c₁ htype => .expect fun t ht hfits => ?_
  have htype := ensures_type hp.reference _ _ _ htype
  have hcls : t.cls = .identifier := beq_iff_eq.1 hfits
  have hname := nested_of_class hp.kept.proper ht (by rw [hcls]; decide)
  exact hrest ht hcls rfl htype ((hhead.trans (htype.nested hp.kept.proper)).trans hname)

theorem ensures_memberBody : Ensures tokens (memberBody parse) c (Reads tokens c.next) := by
  refine .ifTakesText (fun hvoid => ?_) ?_
  · exact ensures_voidMethod hp ((hvoid.nested (by decide)).rises _) _
  refine .ifPeek (peeks_seesText _) (fun _ => ?_) fun _ => ?_
  · refine .bind fun typeParameters c₁ hrun => ?_
    have hhead := nests_typeParameters? hp.kept.proper hp.reference _ _ _ hrun
    refine .ifPeek (peeks_sees _) (fun _ => ?_) fun _ => ?_
    · exact ensures_constructorRest hp (hhead.rises _) _
    refine .ifTakesText (fun hvoid => ?_) ?_
    · exact ensures_voidMethod hp ((hhead.trans (hvoid.nested (by decide))).rises _) _
    exact ensures_typed hp hhead fun _ _ _ _ hhead =>
      ensures_methodRest hp (hhead.rises _) _ _ _
  refine .bind fun found c₁ hrun => ?_
  obtain ⟨hnone, hsome⟩ := ensures_typeBody? hp _ _ hrun
  cases found with
  | some body => exact ensures_pure (hsome body rfl).1
  | none =>
    obtain rfl := hnone rfl
    refine .ifPeek (peeks_sees _) (fun _ => ensures_constructorRest hp (.refl _) _) fun _ => ?_
    refine ensures_typed hp (.nil _) fun ht hcls hc htype hhead => ?_
    exact .ifPeek (peeks_seesText _) (fun _ => ensures_methodRest hp (hhead.rises _) _ _ _)
      (fun _ => ensures_fieldRest hp htype ht hcls hc)

/-- A generic method of an interface behind its result. -/
theorem ensures_genericRest {anchor : Nat} (hhead : Nested tokens anchor c.next)
    (result : Option TypeRef) (typeParameters : List String) :
    Ensures tokens (do
      let name ← identifier
      let parameters ← parameters parse
      let _ ← dimensions
      let (throws, body) ← methodTail parse
      return Body.method result { name, typeParameters, parameters, throws, body }) c
        (Reads tokens anchor) := by
  refine .bind fun name c₂ hname => .bind fun parameters c₃ hparameters => ?_
  refine .bind fun _ c₄ hdimensions => .bind fun tail c₅ htail => ensures_pure
    ⟨?_, ensures_parameters hp.use _ _ _ hparameters, nofun⟩
  refine ensures_methodTail hp ?_ _ _ htail
  exact (((hhead.rises _).trans ((keeps_identifier hp.kept.proper).rises hname)).trans
    ((keeps_parameters hp.kept le_rfl).rises hparameters)).trans (keeps_dimensions.rises hdimensions)

theorem ensures_interfaceMemberBody :
    Ensures tokens (interfaceMemberBody parse) c (Reads tokens c.next) := by
  refine .bind fun found c₁ hrun => ?_
  obtain ⟨hnone, hsome⟩ := ensures_typeBody? hp _ _ hrun
  cases found with
  | some body => exact ensures_pure (hsome body rfl).1
  | none =>
    obtain rfl := hnone rfl
    refine .ifPeek (peeks_seesText _) (fun _ => ?_) fun _ => ?_
    · refine .bind fun typeParameters c₂ hrun => ?_
      have hhead := nests_typeParameters? hp.kept.proper hp.reference _ _ _ hrun
      refine .ifTakesText (fun hvoid => ?_) (.bind fun result c₃ hrun => ?_)
      · exact ensures_genericRest hp (hhead.trans (hvoid.nested (by decide))) none _
      · exact ensures_genericRest hp
          (hhead.trans ((nests_type hp.kept.proper hp.reference).map _ _ _ hrun)) result _
    refine .ifTakesText (fun hvoid => ?_) ?_
    · exact ensures_voidMethod hp ((hvoid.nested (by decide)).rises _) _
    refine ensures_typed hp (.nil _) fun ht hcls hc htype hhead => ?_
    refine .ifPeek (peeks_seesText _) (fun _ => ensures_methodRest hp (hhead.rises _) _ _ _)
      fun _ => .bind fun constants c₃ hconstants => .symbol fun hsemicolon => ensures_pure ?_
    exact ensures_constantsRest hp htype ht hcls hc _ _ hconstants hsemicolon

/-- An element of an annotation type is not kept; it ends with a semicolon. -/
theorem ensures_annotationMemberBody :
    Ensures tokens (annotationMemberBody parse) c fun found c' =>
      (found = none → Settled tokens c'.next) ∧
        ∀ body, found = some body → Reads tokens c.next body c' := by
  refine .bind fun found c₁ hrun => ?_
  obtain ⟨hnone, hsome⟩ := ensures_typeBody? hp _ _ hrun
  cases found with
  | some body =>
    exact ensures_pure ⟨nofun, fun _ h => Option.some.inj h ▸ (hsome body rfl).1⟩
  | none =>
    obtain rfl := hnone rfl
    have hend : ∀ {c : Cursor}, Ensures tokens (do symbol ";"; return (none : Option Body)) c
        fun found c' => (found = none → Settled tokens c'.next) ∧
          ∀ body, found = some body → Reads tokens c₁.next body c' :=
      .symbol fun hsemicolon =>
        ensures_pure ⟨fun _ => hsemicolon.settled hp.kept.proper (by decide), nofun⟩
    refine ensures_typed hp (.nil _) fun ht hcls hc htype hhead => ?_
    refine .ifTakesText (fun _ => .symbol fun _ => .bind fun _ _ _ => ?_) ?_
    · exact .ifTakesText (fun _ => .bind fun _ _ _ => hend) hend
    · refine .bind fun constants c₂ hrun => .symbol fun hsemicolon => ensures_pure ⟨nofun, ?_⟩
      rintro body ⟨⟩
      exact ensures_constantsRest hp htype ht hcls hc _ _ hrun hsemicolon

end

/-! ### Declarations with their fronts -/

/-- A declaration with its front is a front and a body. -/
theorem withFront_eq_done {body : Parser (Option Body)} {found : Option Declaration} {c' : Cursor}
    (h : withFront parse body tokens c = .done found c') :
    ∃ marks c₁ b, front parse tokens c = .done marks c₁ ∧ body tokens c₁ = .done b c' ∧
      ((b = none ∧ found = none) ∨ ∃ d, found = some d ∧ b = some d.body ∧
        marks.header (tokens[c₁.next]?.map (·.position)) tokens c' = .done d.header c') := by
  obtain ⟨marks, c₁, hfront, h⟩ := bind_eq_done h
  obtain ⟨position, c₂, hposition, h⟩ := bind_eq_done h
  obtain ⟨b, c₃, hbody, h⟩ := bind_eq_done h
  cases hposition
  cases b with
  | none =>
    cases h
    exact ⟨marks, c₁, none, hfront, hbody, .inl ⟨rfl, rfl⟩⟩
  | some b =>
    obtain ⟨header, c₄, hheader, h⟩ := bind_eq_done h
    cases hheader
    cases h
    exact ⟨marks, c₁, some b, hfront, hbody, .inr ⟨_, rfl, rfl, rfl⟩⟩

/-- A declaration may have been read from one place to another, and no modifier stands before the
second. -/
def ItemAt (tokens : Array Token) (i : Nat) (found : Option Declaration) (c' : Cursor) : Prop :=
  Settled tokens c'.next ∧ ∀ d, found = some d → ReadsDeclaration tokens i d c'

section
variable (hp : Lays tokens parse)
include hp

theorem ensures_withFront {body : Parser (Option Body)}
    (hbody : ∀ c, Ensures tokens body c fun found c' =>
      ∀ b, found = some b → Reads tokens c.next b c') (hc : Settled tokens c.next) :
    Ensures tokens (withFront parse body) c fun found c' =>
      ∀ d, found = some d → ReadsDeclaration tokens c.next d c' := by
  intro found c' hrun d hd
  obtain ⟨marks, c₁, b, hfront, hrun, hfound⟩ := withFront_eq_done hrun
  obtain ⟨hfirst, hmarks, hused⟩ := ensures_front hp.kept hp.use _ _ _ hfront
  rcases hfound with ⟨-, rfl⟩ | ⟨d', rfl, rfl, hheader⟩
  · cases hd
  obtain rfl := Option.some.inj hd
  obtain ⟨hat, hused', hnested⟩ := hbody _ _ _ hrun _ rfl
  obtain ⟨t, ht⟩ := hat.anchored hp.kept.proper
  have hheader := (Reply.done.inj hheader).1
  refine ⟨⟨c₁.next, ⟨?_, ?_, t, ht, ?_⟩, ?_⟩, ?_, ?_, hnested⟩
  · rw [← hheader, hfirst]
    exact hc
  · rw [← hheader, hfirst]
    exact hmarks
  · rw [← hheader, ht]
    rfl
  · rw [← hheader]
    exact hat
  · rw [Declaration.uses, ← hheader]
    exact List.forall_mem_append.2 ⟨hused, hused'⟩
  · rw [← hheader, hfirst]

/-- Behind a declaration no modifier stands. -/
theorem Lays.itemAt {d : Declaration} {c' : Cursor} (h : ReadsDeclaration tokens i d c') :
    ItemAt tokens i (some d) c' := by
  refine ⟨?_, fun _ hd => Option.some.inj hd ▸ h⟩
  obtain ⟨⟨anchor, -, hbody⟩, -, hextent, -⟩ := h
  rw [hextent] at hbody
  exact hbody.settled hp.kept.proper

/-- A member of which the body is always kept. -/
theorem ensures_member {body : Parser Body}
    (hbody : ∀ c, Ensures tokens body c (Reads tokens c.next)) (hc : Settled tokens c.next) :
    Ensures tokens (withFront parse do return some (← body)) c (ItemAt tokens c.next) := by
  intro found c' hrun
  have hreads := ensures_withFront hp (fun c => .bind fun b c' hrun => ensures_pure fun _ h =>
    Option.some.inj h ▸ hbody c _ _ hrun) hc _ _ hrun
  cases found with
  | some d => exact hp.itemAt (hreads d rfl)
  | none =>
    obtain ⟨marks, c₁, b, -, hrun, ⟨rfl, -⟩ | ⟨d, hd, -⟩⟩ := withFront_eq_done hrun
    · obtain ⟨b, c₂, -, hrun⟩ := bind_eq_done hrun
      cases hrun
    · cases hd

theorem ensures_classMember (hc : Settled tokens c.next) :
    Ensures tokens (classMember parse) c (ItemAt tokens c.next) := by
  have hblock : ∀ {c₀ : Cursor}, Ensures tokens
      (do parse .block; return (none : Option Declaration)) c₀ (ItemAt tokens c.next) := by
    refine .bind fun _ c' hrun => ensures_pure ⟨?_, nofun⟩
    obtain ⟨last, hlast, hstands, -⟩ := (hp.block _ _ _ hrun).closer
    dsimp only at hlast
    rw [hlast]
    exact hstands.settled hp.kept.proper (by decide)
  refine .ifTakesText (fun hsemicolon => ensures_pure ⟨?_, nofun⟩) ?_
  · exact hsemicolon.settled hp.kept.proper (by decide)
  refine .ifPeek (peeks_sees _) (fun _ => .symbol fun _ => hblock) fun _ => ?_
  refine .ifPeek (peeks_seesText _) (fun _ => hblock) fun _ => ?_
  exact ensures_member hp (fun _ => ensures_memberBody hp) hc

theorem ensures_interfaceMember (hc : Settled tokens c.next) :
    Ensures tokens (interfaceMember parse) c (ItemAt tokens c.next) := by
  refine .ifTakesText (fun hsemicolon => ensures_pure ⟨?_, nofun⟩) ?_
  · exact hsemicolon.settled hp.kept.proper (by decide)
  exact ensures_member hp (fun _ => ensures_interfaceMemberBody hp) hc

theorem ensures_annotationMember (hc : Settled tokens c.next) :
    Ensures tokens (withFront parse (annotationMemberBody parse)) c (ItemAt tokens c.next) := by
  intro found c' hrun
  have hreads := ensures_withFront hp
    (fun c => (ensures_annotationMemberBody hp).mono fun _ _ h => h.2) hc _ _ hrun
  cases found with
  | some d => exact hp.itemAt (hreads d rfl)
  | none =>
    obtain ⟨marks, c₁, b, -, hrun, ⟨rfl, -⟩ | ⟨d, hd, -⟩⟩ := withFront_eq_done hrun
    · exact ⟨(ensures_annotationMemberBody hp _ _ hrun).1 rfl, nofun⟩
    · cases hd

/-! ### Bodies of types -/

/-- Declarations were read between two places. -/
def ItemsAt (tokens : Array Token) (i : Nat) (found : List (Option Declaration)) (c' : Cursor) :
    Prop :=
  ∀ d ∈ found.filterMap id, ∃ j c₁, i ≤ j ∧ ReadsDeclaration tokens j d c₁ ∧
    Remains .heading tokens c₁.next c'.next

omit hp in
theorem ItemsAt.mono {found : List (Option Declaration)} {c' : Cursor}
    (h : ItemsAt tokens j found c') (hle : i ≤ j) : ItemsAt tokens i found c' := by
  intro d hd
  obtain ⟨k, c₁, hk, hrest⟩ := h d hd
  exact ⟨k, c₁, hle.trans hk, hrest⟩

omit hp in
theorem ensures_upTo {item : Parser (Option Declaration)}
    (hremains : ∀ {c v c'}, item tokens c = .done v c' → Remains .heading tokens c.next c'.next)
    (hitem : ∀ {c : Cursor}, Settled tokens c.next → Ensures tokens item c (ItemAt tokens c.next))
    (hc : Settled tokens c.next) :
    Ensures tokens (upTo closeBrace item) c fun found c' =>
      ItemsAt tokens c.next found c' ∧ Remains .heading tokens c.next c'.next := by
  intro found c' hrun
  have hstep : ∀ c, Ensures tokens
      (do if ← seesText closeBrace then return none else return some (← item)) c fun found c' =>
        (found = none → c' = c) ∧ ∀ v, found = some v → item tokens c = .done v c' := by
    refine fun c => .ifPeek (peeks_seesText _) (fun _ => ensures_pure ⟨fun _ => rfl, nofun⟩)
      fun _ => .bind fun v c' hrun => ensures_pure ⟨nofun, fun w hw => ?_⟩
    rwa [← Option.some.inj hw]
  have hrounds := rounds_of_collect hrun
  clear hrun
  induction hrounds with
  | last h =>
    obtain rfl := (hstep _ _ _ h).1 rfl
    exact ⟨nofun, .refl _⟩
  | @next v vs c c₁ c' h _ ih =>
    have hrun := (hstep _ _ _ h).2 _ rfl
    have hfound := hitem hc _ _ hrun
    obtain ⟨hrest, hremains'⟩ := ih hfound.1
    refine ⟨?_, (hremains hrun).trans hremains'⟩
    have hrest := hrest.mono (hremains hrun).le
    cases v with
    | none => exact hrest
    | some e => exact List.forall_mem_cons.2 ⟨⟨_, c₁, le_rfl, hfound.2 e rfl, hremains'⟩, hrest⟩

theorem ensures_memberItems (kind : DeclarationKind) (hc : Settled tokens c.next) :
    Ensures tokens (memberItems parse kind) c (ItemsAt tokens c.next) := by
  have hclass : ∀ {c : Cursor}, Settled tokens c.next →
      Ensures tokens (upTo closeBrace (classMember parse)) c (ItemsAt tokens c.next) := fun hc =>
    (ensures_upTo (fun hrun => (keeps_classMember (g := ⟨.heading, _, 0⟩) hp.kept (Nat.zero_le _)
      le_rfl le_rfl).remains hrun) (ensures_classMember hp) hc).mono fun _ _ h => h.1
  cases kind with
  | classType => exact hclass hc
  | recordType => exact hclass hc
  | enumType =>
    refine .bind fun _ c₁ hrun => .ifTakesText (fun hsemicolon => ?_) (ensures_pure nofun)
    have hle := ((keeps_enumConstants (g := ⟨.braces, _, 0⟩) hp.kept le_rfl le_rfl).rises hrun).le
    exact (hclass (hsemicolon.settled hp.kept.proper (by decide))).mono fun _ _ h =>
      h.mono (hle.trans (Nat.le_succ _))
  | interfaceType =>
    exact (ensures_upTo (fun hrun => (keeps_interfaceMember (g := ⟨.heading, _, 0⟩) hp.kept
      (Nat.zero_le _) le_rfl le_rfl).remains hrun) (ensures_interfaceMember hp) hc).mono
      fun _ _ h => h.1
  | annotationType =>
    exact (ensures_upTo (fun hrun => (keeps_withFront (g := ⟨.heading, _, 0⟩) hp.kept
      (Nat.zero_le _) fun _ => keeps_annotationMemberBody hp.kept (Nat.zero_le _) le_rfl
      le_rfl).remains hrun) (ensures_annotationMember hp) hc).mono fun _ _ h => h.1

end

/-- A brace or a semicolon within a bracket. -/
theorem Stands.remains_heading {value : String} (h : Stands tokens i value)
    (hvalue : value ∈ [openBrace, closeBrace, ";"]) : Remains .heading tokens i (i + 1) := by
  obtain ⟨t, ht, rfl⟩ := h
  have hmarks : ∀ v ∈ [openBrace, closeBrace, ";"], Gauge.heading.demand v ≤ 1 ∧
      Gauge.heading.weight v = 0 := by decide
  obtain ⟨hdemand, hweight⟩ := hmarks _ hvalue
  refine ⟨Nat.le_succ i, fun k hlo hhi => ?_, ?_⟩
  · obtain rfl : k = i := by omega
    exact ⟨t, ht, by dsimp only; omega⟩
  · rw [height_succ ht, hweight]
    omega

/-- What stands between braces, if it keeps its heights there. -/
theorem braced_of_run {α : Type} {p : Parser α} {v : α} {c c₁ : Cursor}
    (hp : ∀ {g : Ground} {a : Nat}, g.floor ≤ a → g.gauge.brace ≤ a → g.gauge.semicolon ≤ a →
      Keeps tokens g a (fun _ => a) p { c with next := c.next + 1 })
    (hopen : Stands tokens c.next openBrace)
    (hrun : p tokens { c with next := c.next + 1 } = .done v c₁)
    (hclose : Stands tokens c₁.next closeBrace) : Braced tokens ⟨c.next, c₁.next + 1⟩ := by
  refine ⟨hopen, ⟨c₁.next, rfl, hclose, (hp le_rfl le_rfl le_rfl).rises hrun⟩, ?_⟩
  have hwithin : Remains .heading tokens (c.next + 1) c₁.next :=
    (hp (g := ⟨.heading, _, 0⟩) (Nat.zero_le 1) le_rfl le_rfl).remains hrun
  exact ((hopen.remains_heading (by decide)).trans hwithin).trans (hclose.remains_heading (by decide))

section
variable (hp : Lays tokens parse)
include hp

theorem ensures_members (kind : DeclarationKind) (c : Cursor) :
    Ensures tokens (members parse kind) c fun ds c' => Braced tokens ⟨c.next, c'.next⟩ ∧
      ∀ d ∈ Declaration.allOf ds, Inner tokens c.next c'.next d := by
  refine .symbol fun hopen => .bind fun found c₁ hrun => .symbol fun hclose => ensures_pure ?_
  refine ⟨braced_of_run (fun hf hb hs => keeps_memberItems hp.kept hf hb hs kind) hopen hrun hclose,
    fun d hd => ?_⟩
  obtain ⟨e, he, hd⟩ := Declaration.mem_allOf.1 hd
  have hsettled : Settled tokens (c.next + 1) := hopen.settled hp.kept.proper (by decide)
  obtain ⟨j, c₂, hj, hreads, hremains⟩ := ensures_memberItems hp kind hsettled _ _ hrun e he
  have hstop : e.header.extent.stop < c₁.next + 1 := by
    rw [hreads.extent]
    exact Nat.lt_succ_of_le hremains.le
  have hfirst : c.next < e.header.extent.first := by
    rw [hreads.extent]
    exact hj
  have hremains : Remains .heading tokens e.header.extent.stop (c₁.next + 1) := by
    rw [hreads.extent]
    exact hremains.trans (hclose.remains_heading (by decide))
  rcases Declaration.mem_all.1 hd with rfl | hd
  · exact ⟨hreads.layout, hreads.used, hfirst, hstop, hremains⟩
  · have hinner := hreads.nested d hd
    have hopening := hreads.layout.first_le_opening (isType_of_mem_nested hd)
    rw [hreads.extent] at hremains hstop
    exact ⟨hinner.layout, hinner.used, (hfirst.trans_le hopening).trans hinner.first,
      hinner.stop.trans hstop, hinner.remains.trans hremains⟩

theorem ensures_block (c : Cursor) :
    Ensures tokens (block parse) c fun _ c' => Braced tokens ⟨c.next, c'.next⟩ := by
  refine .symbol fun hopen => .bind fun found c₁ hrun => fun _ c' hsymbol => ?_
  obtain ⟨hclose, rfl⟩ := symbol_eq_done hsymbol
  refine braced_of_run (fun hf hb hs => Keeps.upTo fun _ => ?_) hopen hrun hclose
  exact hp.kept.keeps .blockStatement hf (Nat.max_le.2 ⟨hb, hs⟩)

end

/-! ### Type declarations -/

/-- Modifiers and annotations do not reach beyond a token that is neither. -/
theorem MarksAt.le_of_misfit {uses : List AnnotationUse} {k : Nat} {t : Token}
    (h : MarksAt tokens i uses j) (hle : i ≤ k)
    (hbefore : ∀ n, i ≤ n → n < k → ∃ u, tokens[n]? = some u ∧ u.cls = .modifier)
    (ht : tokens[k]? = some t) (hmodifier : t.cls ≠ .modifier) (hsign : t.cls ≠ .atSign) :
    j ≤ k := by
  induction h with
  | nil => exact hle
  | @modifier i j u uses hu hcls _ ih =>
    rcases Nat.eq_or_lt_of_le hle with rfl | hlt
    · rw [ht] at hu
      exact absurd (Option.some.inj hu ▸ hcls) hmodifier
    · exact ih hlt fun n hlo hhi => hbefore n (by omega) hhi
  | @use i j m u use uses hu hcls _ _ _ _ =>
    rcases Nat.eq_or_lt_of_le hle with rfl | hlt
    · rw [ht] at hu
      exact absurd (Option.some.inj hu ▸ hcls) hsign
    · obtain ⟨w, hw, hmod⟩ := hbefore i le_rfl hlt
      rw [hu] at hw
      rw [← Option.some.inj hw, hcls] at hmod
      cases hmod

/-- A type declaration begins with its word or with an at sign. -/
theorem ensures_typeBody?_sees : Ensures tokens (typeBody? parse) c fun found _ => found ≠ none →
    ∃ t, tokens[c.next]? = some t ∧
      (t.cls = .atSign ∨ t.value ∈ ["class", "enum", "interface"]) := by
  have hword : ∀ {word : String} {c' : Cursor}, word ∈ ["class", "enum", "interface"] →
      seesText word tokens c = .done true c' → ∃ t, tokens[c.next]? = some t ∧
        (t.cls = .atSign ∨ t.value ∈ ["class", "enum", "interface"]) := by
    intro word c' hmem h
    rw [seesText, sees_eq, Reply.done.injEq] at h
    obtain ⟨⟨t, ht, rfl⟩, -⟩ := exists_of_fitsFrom_text h.1
    exact ⟨t, ht, .inr hmem⟩
  refine .ifPeek (peeks_seesText _) (fun h _ _ _ _ => hword (by decide) h) fun _ => ?_
  refine .ifPeek (peeks_seesText _) (fun h _ _ _ _ => hword (by decide) h) fun _ => ?_
  refine .ifPeek (peeks_seesText _) (fun h _ _ _ _ => hword (by decide) h) fun _ => ?_
  refine .ifPeek peeks_seesAnnotationType (fun h _ _ _ _ => ?_)
    (fun _ => ensures_pure fun hne => absurd rfl hne)
  rw [seesAnnotationType, sees_eq, Reply.done.injEq] at h
  obtain ⟨⟨t, ht, hcls⟩, -⟩ := exists_of_fitsFrom_ofClass h.1
  exact ⟨t, ht, .inl hcls⟩

section
variable (hp : Lays tokens parse)
include hp

/-- **Where no declaration begins, none is read.** -/
theorem not_misfit_of_withFront {d : Declaration} {c' : Cursor}
    (h : withFront parse (typeBody? parse) tokens c = .done (some d) c') :
    ¬ Misfit tokens c.next := by
  rintro ⟨k, t, hle, hbefore, ht, hmodifier, hsign, hvalue⟩
  obtain ⟨marks, c₁, b, hfront, hbody, ⟨-, hd⟩ | ⟨d', -, rfl, -⟩⟩ := withFront_eq_done h
  · cases hd
  obtain ⟨-, hmarks, -⟩ := ensures_front hp.kept hp.use _ _ _ hfront
  obtain ⟨u, hu, hword⟩ := ensures_typeBody?_sees _ _ hbody nofun
  have hreach := hmarks.le_of_misfit hle hbefore ht hmodifier hsign
  rcases Nat.eq_or_lt_of_le hreach with heq | hlt
  · rw [heq, ht] at hu
    obtain rfl := Option.some.inj hu
    refine hword.elim hsign fun hmem => hvalue ?_
    have hsub : ∀ v ∈ ["class", "enum", "interface"],
        v ∈ ["class", "enum", "interface", "import", ";"] := by decide
    exact hsub _ hmem
  · -- A modifier is none of these words.
    have hstart : c.next ≤ c₁.next := ((keeps_front hp.kept le_rfl).rises (m := .braces) hfront).le
    obtain ⟨w, hw, hcls⟩ := hbefore c₁.next hstart hlt
    rw [hu] at hw
    obtain rfl := Option.some.inj hw
    rcases hword with hat | hmem
    · rw [hat] at hcls
      cases hcls
    · have hclass := (hp.kept.proper u (Array.mem_of_getElem? hu)).word (by rw [hcls]; decide)
      have hno : ∀ v ∈ ["class", "enum", "interface"], classOfWord v ≠ .modifier := by decide
      exact hno _ hmem (hclass.symm.trans hcls)

theorem ensures_typeDeclaration (c : Cursor) :
    Ensures tokens (typeDeclaration parse) c fun d c' => ¬ Misfit tokens c.next ∧
      (Settled tokens c.next → ReadsDeclaration tokens c.next d c' ∧ d.body.isType = true) := by
  refine .bind fun found c' hrun => ?_
  cases found with
  | none => exact ensures_refuse _
  | some d =>
    refine ensures_pure ⟨not_misfit_of_withFront hp hrun, fun hc => ⟨?_, ?_⟩⟩
    · exact ensures_withFront hp (fun c => (ensures_typeBody? hp).mono
        fun _ _ h b hb => (h.2 b hb).1) hc _ _ hrun d rfl
    · obtain ⟨marks, c₁, b, -, hbody, ⟨-, hd⟩ | ⟨d', hd, rfl, -⟩⟩ := withFront_eq_done hrun
      · cases hd
      · obtain rfl := Option.some.inj hd
        exact ((ensures_typeBody? hp _ _ hbody).2 _ rfl).2

/-- If the rules are laid out as said within a depth, they are one level deeper. -/
theorem Lays.step : Lays tokens (step parse) where
  kept := hp.kept.step
  reference := ensures_reference hp.kept.proper hp.reference
  use := ensures_annotationUse hp.kept
  block := ensures_block hp
  members := ensures_members hp
  typeDeclaration := ensures_typeDeclaration hp

end

theorem lays_parseRule (hproper : ∀ t ∈ tokens, Proper t) (depth : Nat) :
    Lays tokens (parseRule depth) := by
  induction depth with
  | zero =>
    exact ⟨kept_parseRule hproper 0, fun _ => ensures_stop _, fun _ => ensures_stop _,
      fun _ => ensures_stop _, fun _ _ => ensures_stop _, fun _ => ensures_stop _⟩
  | succ depth ih => exact ih.step

/-! ### Units -/

/-- The last round of a repetition that ended. -/
theorem Rounds.exists_last {α : Type} {step : Parser (Option α)} {vs : List α} {c c' : Cursor}
    (h : Rounds step tokens c vs c') : ∃ c₁, step tokens c₁ = .done none c' := by
  induction h with
  | last h => exact ⟨_, h⟩
  | next _ _ ih => exact ih

section
variable (hp : Lays tokens parse)
include hp

/-- A unit is read on from a place that can be gone back to. -/
theorem ensures_package? : Ensures tokens (package? parse) ⟨0, 0⟩ fun _ c' =>
    Resumable tokens c'.next := by
  have hrest : ∀ {c : Cursor}, Resumable tokens c.mark → Ensures tokens (do
      if ← takesText "package" then
        let name ← qualifiedName
        symbol ";"
        return some name
      else
        rewind
        return none) c fun _ c' => Resumable tokens c'.next := by
    intro c hmark
    refine .ifTakesText (fun _ => .bind fun name c₁ _ => .symbol fun hsemicolon => ?_) ?_
    · exact ensures_pure (.inl (hsemicolon.settled hp.kept.proper (by decide)))
    · refine .bind fun _ c₁ hrewind => ensures_pure ?_
      cases hrewind
      exact hmark
  have hstart : Resumable tokens 0 := .inl fun j t h => by omega
  refine .ifPeek (peeks_seesAnnotationAt 0) (fun _ => .bind fun _ c₁ hrun => hrest ?_)
    (fun _ => hrest hstart)
  obtain ⟨hpassed, -⟩ := (keeps_annotations (g := ⟨.braces, 0, 0⟩) hp.kept le_rfl).done
    (Int.le_of_eq rfl) hrun
  rcases hpassed.mark with hmark | ⟨-, -, -, hres⟩
  · rw [hmark]
    exact hstart
  · exact hres

theorem ensures_importDeclaration :
    Ensures tokens importDeclaration c fun _ c' => Settled tokens c'.next := by
  have hend : ∀ {c : Cursor}, Ensures tokens (do symbol ";"; return (none : Option Unit)) c
      fun found c' => found = none → Settled tokens c'.next :=
    .symbol fun hsemicolon =>
      ensures_pure fun _ => hsemicolon.settled hp.kept.proper (by decide)
  refine .symbol fun _ => .bind fun _ _ _ => .bind fun _ _ _ => .bind fun _ c' hrun => ?_
  refine ensures_pure ?_
  obtain ⟨c₁, hlast⟩ := (rounds_of_collect hrun).exists_last
  refine Ensures.ifTakesText (fun _ => ?_) hend _ _ hlast rfl
  exact .ifTakesText (fun _ => hend) (.bind fun _ _ _ => ensures_pure nofun)

theorem ensures_imports (hc : Resumable tokens c.next) :
    Ensures tokens (collect do
      if ← seesText "import" then
        importDeclaration
        return some ()
      else return none) c fun _ c' => Resumable tokens c'.next := by
  have hstep : ∀ {c : Cursor}, Resumable tokens c.next → Ensures tokens (do
      if ← seesText "import" then
        importDeclaration
        return some ()
      else return none) c fun _ c' => Resumable tokens c'.next := by
    refine fun hc => .ifPeek (peeks_seesText _) (fun _ => ?_) (fun _ => ensures_pure hc)
    exact .bind fun _ _ hrun => ensures_pure (.inl (ensures_importDeclaration hp _ _ hrun))
  intro found c' hrun
  have hrounds := rounds_of_collect hrun
  clear hrun
  induction hrounds with
  | last h => exact hstep hc _ _ h
  | next h _ ih => exact ih (hstep hc _ _ h)

omit hp in
theorem keeps_topLevel {g : Ground} {a : Nat} (hp : Kept tokens parse) (hf : g.floor ≤ a)
    (hb : g.gauge.brace ≤ a) (hs : g.gauge.semicolon ≤ a) :
    Keeps tokens g a (fun _ => a) (topLevel parse) c :=
  Keeps.ifTakesText (Ground.step_semicolon hs) (fun _ => keeps_pure _ le_rfl) fun _ =>
    (hp.keeps .typeDeclaration hf hb).bind fun _ _ _ => keeps_pure _ le_rfl

/-- A type declaration or a lone semicolon of a unit. -/
theorem ensures_topLevel (hc : Resumable tokens c.next) :
    Ensures tokens (topLevel parse) c fun found c' => ItemAt tokens c.next found c' ∧
      ∀ d, found = some d → d.body.isType = true := by
  refine .ifTakesText (fun hsemicolon => ensures_pure ⟨⟨?_, nofun⟩, nofun⟩) ?_
  · exact hsemicolon.settled hp.kept.proper (by decide)
  refine .bind fun d c' hrun => ensures_pure ?_
  obtain ⟨hfit, hreads⟩ := hp.typeDeclaration _ _ _ hrun
  obtain ⟨hreads, htype⟩ := hreads (hc.resolve_right hfit)
  exact ⟨hp.itemAt hreads, fun _ h => Option.some.inj h ▸ htype⟩

omit hp in
/-- One round of the declarations of a unit. -/
theorem ensures_types_step (c : Cursor) : Ensures tokens (do
    match ← look 0 with
    | none => return none
    | some _ => return some (← needsMore (topLevel parse))) c fun found c' =>
      (found = none → c' = c ∧ tokens.size ≤ c.next) ∧
        ∀ v, found = some v → topLevel parse tokens c = .done v c' := by
  refine .peek (peeks_look 0) fun token hlook => ?_
  cases token with
  | none =>
    have hsize : tokens.size ≤ c.next := Array.getElem?_eq_none_iff.1 (Reply.done.inj hlook).1
    exact ensures_pure ⟨fun _ => ⟨rfl, hsize⟩, nofun⟩
  | some token =>
    refine .bind fun v c' hrun => ensures_pure ⟨nofun, ?_⟩
    rintro _ ⟨⟩
    rw [needsMore] at hrun
    split at hrun
    · cases hrun
    · exact hrun

/-- The declarations of a unit, behind which the tokens end. -/
theorem ensures_types (hc : Resumable tokens c.next) :
    Ensures tokens (collect do
      match ← look 0 with
      | none => return none
      | some _ => return some (← needsMore (topLevel parse))) c fun found c' =>
        tokens.size ≤ c'.next ∧ Remains .heading tokens c.next c'.next ∧
          ∀ d ∈ found.filterMap id, d.body.isType = true ∧ ∃ j c₁, ReadsDeclaration tokens j d c₁ ∧
            Remains .heading tokens c₁.next c'.next := by
  intro found c' hrun
  have hrounds := rounds_of_collect hrun
  clear hrun
  induction hrounds with
  | last h =>
    obtain ⟨rfl, hsize⟩ := (ensures_types_step _ _ _ h).1 rfl
    exact ⟨hsize, .refl _, nofun⟩
  | @next v vs c c₁ c' h _ ih =>
    have hrun := (ensures_types_step _ _ _ h).2 _ rfl
    obtain ⟨⟨hsettled, hreads⟩, htype⟩ := ensures_topLevel hp hc _ _ hrun
    obtain ⟨hsize, hremains, hrest⟩ := ih (.inl hsettled)
    have hfirst : Remains .heading tokens c.next c₁.next :=
      (keeps_topLevel (g := ⟨.heading, _, 0⟩) hp.kept (Nat.zero_le 1) le_rfl le_rfl).remains hrun
    refine ⟨hsize, hfirst.trans hremains, ?_⟩
    cases v with
    | none => exact hrest
    | some d =>
      exact List.forall_mem_cons.2 ⟨⟨htype d rfl, c.next, c₁, hreads d rfl, hremains⟩, hrest⟩

end

/-- **How the declarations of a unit stand.**  Behind each of them the tokens stay as high as it, and
what is nested in it stands within its braces. -/
theorem reads_of_parseUnit (hproper : ∀ t ∈ tokens, Proper t) {unit : CompilationUnit}
    (h : parseUnit tokens = .ok unit) : ∃ last, tokens.size ≤ last ∧ ∀ e ∈ unit.types,
      e.body.isType = true ∧ DeclarationAt tokens e ∧ AllUsed tokens e.uses ∧
      Remains .heading tokens e.header.extent.stop last ∧
      ∀ d ∈ e.body.nested, Inner tokens e.body.opening e.header.extent.stop d := by
  have hp := lays_parseRule hproper (depthBound tokens)
  have hunit : Ensures tokens (compilationUnit (parseRule (depthBound tokens))) ⟨0, 0⟩
      fun unit c' => tokens.size ≤ c'.next ∧ ∀ d ∈ unit.types, d.body.isType = true ∧
        ∃ j c₁, ReadsDeclaration tokens j d c₁ ∧ Remains .heading tokens c₁.next c'.next := by
    refine .bind fun package c₁ hpackage => .bind fun _ c₂ himports => ?_
    refine .bind fun types c₃ htypes => ensures_pure ?_
    have hstart := ensures_package? hp _ _ hpackage
    obtain ⟨hsize, -, hall⟩ := ensures_types hp (ensures_imports hp hstart _ _ himports) _ _ htypes
    exact ⟨hsize, hall⟩
  rw [parseUnit] at h
  split at h
  · rename_i c' hrun
    obtain rfl := Except.ok.inj h
    obtain ⟨hsize, hall⟩ := hunit _ _ hrun
    refine ⟨c'.next, hsize, fun e he => ?_⟩
    obtain ⟨htype, j, c₁, hreads, hremains⟩ := hall e he
    have hstop : e.header.extent.stop = c₁.next := by rw [hreads.extent]
    rw [hstop]
    exact ⟨htype, hreads.layout, hreads.used, hremains, hreads.nested⟩
  · cases h

/-- **Every declaration of a unit stands where its extent says.**  Only type declarations can be the
last of all. -/
theorem declarationAt_of_parseUnit (hproper : ∀ t ∈ tokens, Proper t) {unit : CompilationUnit}
    (h : parseUnit tokens = .ok unit) {d : Declaration} (hd : d ∈ Declaration.allOf unit.types) :
    DeclarationAt tokens d ∧ (d.body.isType = true ∨ d.header.extent.stop < tokens.size) := by
  obtain ⟨_, _, hall⟩ := reads_of_parseUnit hproper h
  obtain ⟨e, he, hd⟩ := Declaration.mem_allOf.1 hd
  obtain ⟨htype, hat, -, -, hnested⟩ := hall e he
  rcases Declaration.mem_all.1 hd with rfl | hd
  · exact ⟨hat, .inl htype⟩
  · obtain ⟨anchor, -, hbody⟩ := hat
    obtain ⟨last, value, hstop, -, ⟨t, ht, -⟩, -⟩ := hbody.closer hproper
    have hlast := (Array.getElem?_eq_some_iff.1 ht).1
    have hinner := hnested d hd
    exact ⟨hinner.layout, .inr (hinner.stop.trans_le (by omega))⟩

end SourceDoc.Grammar
