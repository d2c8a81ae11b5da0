import SourceDoc.Proofs.Node.Ranges
import SourceDoc.Proofs.Tree.TypeTexts

/-!
# Declarations are made of words

Whatever the grammar reads, the names, modifiers and types of a declaration are made of words, and
only the last parameter of a method takes any number of arguments (`Declaration.IsWritten`).
`Yields` says what a parser gives wherever it starts, with a rule for every combinator; one level of
nesting keeps that declarations are written (`Writes.step`), and so does every depth.
-/

namespace SourceDoc.Tree

open SourceDoc.Token

/-! ### Declarations that were read -/

/-- A name with its qualification: identifiers with points between them. -/
def IsQualified (name : String) : Prop :=
  ∃ names, names ≠ [] ∧ (∀ n ∈ names, IsWordOf .identifier n) ∧ name = ".".intercalate names

/-- A parameter made of words. -/
def Parameter.IsWritten (p : Parameter) : Prop := p.type.IsWritten ∧ IsWordOf .identifier p.name

/-- A method or constructor made of words. -/
structure Callable.IsWritten (callable : Callable) : Prop where
  /-- Its name is an identifier. -/
  name : IsWordOf .identifier callable.name
  /-- So are the names of its type parameters. -/
  typeParameters : ∀ n ∈ callable.typeParameters, IsWordOf .identifier n
  /-- Its parameters are made of words. -/
  parameters : ∀ p ∈ callable.parameters, p.IsWritten
  /-- Behind a parameter that takes any number of arguments there is none. -/
  varargs : callable.parameters.IsChain fun p _ => p.varargs = false
  /-- What may be thrown is named with its qualification. -/
  throws : ∀ n ∈ callable.throws, IsQualified n

/-- What a declaration declares is made of words, apart from what is nested in it.  A class may
extend any type; the other types that a declaration builds on stand for objects. -/
def Body.IsWritten : Body → Prop
  | .type kind name _ parents interfaces _ _ => IsWordOf .identifier name ∧
    (∀ t ∈ parents, t.IsWritten ∧ (kind ≠ .classType → t.IsObject)) ∧
    ∀ t ∈ interfaces, t.IsWritten ∧ t.IsObject
  | .field t _ => t.IsWritten
  | .method result callable => (∀ t ∈ result, t.IsWritten) ∧ callable.IsWritten
  | .constructor callable => callable.IsWritten

/-- A declaration made of words, apart from what is nested in it. -/
def Declaration.IsWritten (d : Declaration) : Prop :=
  (∀ m ∈ d.header.modifiers, IsWordOf .modifier m) ∧ d.body.IsWritten

/-- What a declaration declares is made of words, with all that is nested in it. -/
def Body.IsWrittenThrough (body : Body) : Prop :=
  body.IsWritten ∧ ∀ d ∈ body.nested, d.IsWritten

/-- Declarations made of words, with all that is nested in them. -/
def Declaration.AreWrittenThrough (ds : List Declaration) : Prop :=
  ∀ d ∈ Declaration.allOf ds, d.IsWritten

theorem Declaration.areWrittenThrough_iff {ds : List Declaration} :
    AreWrittenThrough ds ↔ ∀ d ∈ ds, ∀ e ∈ d.all, e.IsWritten := by
  simp only [AreWrittenThrough, Declaration.mem_allOf]
  constructor
  · exact fun h d hd e he => h e ⟨d, hd, he⟩
  · rintro h e ⟨d, hd, he⟩
    exact h d hd e he

end SourceDoc.Tree

namespace SourceDoc.Grammar

open SourceDoc.Tree SourceDoc.Grammar.Parser SourceDoc.Token

variable {α β : Type} {tokens : Array Token} {P : α → Prop} {Q : β → Prop}

/-! ### What parsers give -/

/-- A parser gives only values with a property, wherever it starts. -/
def Yields (tokens : Array Token) (p : Parser α) (P : α → Prop) : Prop :=
  ∀ c, Ensures tokens p c fun v _ => P v

theorem Yields.mono {p : Parser α} {P' : α → Prop} (h : Yields tokens p P) (hP : ∀ v, P v → P' v) :
    Yields tokens p P' :=
  fun c => (h c).mono fun v _ => hP v

theorem yields_pure {v : α} (h : P v) : Yields tokens (pure v) P := fun _ => ensures_pure h

theorem yields_refuse (problem : String) : Yields tokens (refuse problem) P :=
  fun _ => ensures_refuse problem

theorem Yields.bind {p : Parser α} {q : α → Parser β} (hp : Yields tokens p P)
    (hq : ∀ v, P v → Yields tokens (q v) Q) : Yields tokens (p >>= q) Q := by
  intro c
  exact .bind fun v c' hrun => hq v (hp c v c' hrun) c'

/-- What is given behind a parser, whatever that gives. -/
theorem Yields.behind {p : Parser α} {q : α → Parser β} (hq : ∀ v, Yields tokens (q v) Q) :
    Yields tokens (p >>= q) Q := by
  intro c
  exact .bind fun v c' _ => hq v c'

theorem Yields.either {p : Parser Bool} {q r : Parser α} (hq : Yields tokens q P)
    (hr : Yields tokens r P) : Yields tokens (do if ← p then q else r) P := by
  refine .behind fun found => ?_
  cases found with
  | true => exact hq
  | false => exact hr

theorem Yields.measured {p : Parser α} {q : α × Extent → Parser β} (hp : Yields tokens p P)
    (hq : ∀ v extent, P v → Yields tokens (q (v, extent)) Q) :
    Yields tokens (do q (← measured p)) Q := by
  intro c
  exact .measured fun v c' hrun => hq v _ (hp c v c' hrun) c'

/-- The values of a chain have what the first has and what each step gives. -/
theorem Yields.chain {step : α → Parser (Option α)} {R : α → α → Prop} {first : α}
    (hfirst : P first)
    (hstep : ∀ v, P v → Yields tokens (step v) fun found => ∀ w ∈ found, P w ∧ R v w) :
    Yields tokens (chain step first) fun vs => vs ≠ [] ∧ (∀ v ∈ vs, P v) ∧ vs.IsChain R := by
  intro c vs c' hrun
  have hlinks := links_of_chain hrun
  have hall : ∃ rest, vs = first :: rest ∧ (∀ v ∈ vs, P v) ∧ vs.IsChain R := by
    clear hrun
    induction hlinks with
    | @last v c c' h => exact ⟨[], rfl, List.forall_mem_singleton.2 hfirst, .singleton v⟩
    | @next v w vs c c₁ c' h _ ih =>
      obtain ⟨hw, hvw⟩ := hstep v hfirst c _ _ h w rfl
      obtain ⟨rest, rfl, hvs, hchain⟩ := ih hw
      exact ⟨_, rfl, List.forall_mem_cons.2 ⟨hfirst, hvs⟩, List.isChain_cons_cons.2 ⟨hvw, hchain⟩⟩
  obtain ⟨rest, rfl, hvs, hchain⟩ := hall
  exact ⟨List.cons_ne_nil first rest, hvs, hchain⟩

theorem Yields.collect {step : Parser (Option α)}
    (hstep : Yields tokens step fun found => ∀ v ∈ found, P v) :
    Yields tokens (collect step) fun vs => ∀ v ∈ vs, P v := by
  intro c vs c' hrun
  have hrounds := rounds_of_collect hrun
  clear hrun
  induction hrounds with
  | last => exact nofun
  | next h _ ih => exact List.forall_mem_cons.2 ⟨hstep _ _ _ h _ rfl, ih⟩

/-- A value that is found. -/
theorem Yields.found {p : Parser α} (hp : Yields tokens p P) :
    Yields tokens (do return some (← p)) fun found => ∀ v ∈ found, P v := by
  refine hp.bind fun v hv => yields_pure fun w hw => ?_
  obtain rfl := Option.some.inj hw
  exact hv

theorem yields_none : Yields tokens (pure none : Parser (Option α)) fun found => ∀ v ∈ found, P v :=
  yields_pure nofun

theorem Yields.separated {separator : String} {item : Parser α} (hitem : Yields tokens item P) :
    Yields tokens (separated separator item) fun vs => vs ≠ [] ∧ ∀ v ∈ vs, P v := by
  refine hitem.bind fun first hfirst => ?_
  have hchain : Yields tokens (Parser.chain (fun _ => do
      if ← takesText separator then return some (← item) else return none) first)
      fun vs => vs ≠ [] ∧ (∀ v ∈ vs, P v) ∧ vs.IsChain fun _ _ => True :=
    .chain hfirst fun v _ => .either (hitem.found.mono fun _ h w hw => ⟨h w hw, trivial⟩)
      (yields_pure nofun)
  exact hchain.mono fun _ h => ⟨h.1, h.2.1⟩

theorem Yields.listed {closer : String} {item : Parser α} (hitem : Yields tokens item P) :
    Yields tokens (listed closer item) fun vs => ∀ v ∈ vs, P v := by
  refine hitem.bind fun first hfirst => ?_
  have hchain : Yields tokens (Parser.chain (fun _ => do
      if ← takesText closer then return none
      symbol ","
      return some (← item)) first)
      fun vs => vs ≠ [] ∧ (∀ v ∈ vs, P v) ∧ vs.IsChain fun _ _ => True :=
    .chain hfirst fun v _ => .either (yields_pure nofun)
      (.behind fun _ => hitem.found.mono fun _ h w hw => ⟨h w hw, trivial⟩)
  exact hchain.mono fun _ h => h.2.1

/-! ### What one level of nesting needs -/

/-- What is nested gives types and declarations that are made of words. -/
structure Writes (tokens : Array Token) (parse : Descend) : Prop where
  /-- Names, modifiers and basic types are words. -/
  words : ∀ t ∈ tokens, t.cls ∈ wordClasses → IsWordOf t.cls t.value
  /-- Chains of names are made of words. -/
  reference : Yields tokens (parse .reference) fun segments =>
    segments ≠ [] ∧ Segment.AreWritten segments
  /-- Members are made of words. -/
  members : ∀ kind, Yields tokens (parse (.members kind)) Declaration.AreWrittenThrough
  /-- Type declarations are made of words. -/
  typeDeclaration : Yields tokens (parse .typeDeclaration) fun d => ∀ e ∈ d.all, e.IsWritten

section
variable {parse : Descend} (hp : Writes tokens parse)
include hp

theorem yields_expect {cls : TokenClass} (hcls : cls ∈ wordClasses) :
    Yields tokens (expect (.ofClass cls)) (IsWordOf cls) := by
  intro c v c' hrun
  obtain ⟨t, ht, hfits, rfl, -⟩ := expect_eq_done hrun
  obtain rfl : t.cls = cls := beq_iff_eq.1 hfits
  exact hp.words t (Array.mem_of_getElem? ht) hcls

theorem yields_identifier : Yields tokens identifier (IsWordOf .identifier) :=
  yields_expect hp (by decide)

/-! ### Types -/

theorem yields_namedType : Yields tokens (do
    let segments ← parse .reference
    return TypeRef.named segments (← dimensions)) fun t => t.IsWritten ∧ t.IsObject := by
  refine hp.reference.bind fun segments hsegments => .behind fun count => yields_pure ?_
  exact ⟨hsegments, trivial⟩

theorem yields_type : Yields tokens (type parse) TypeRef.IsWritten := by
  refine .either ?_ (.either ?_ (yields_refuse _))
  · refine Yields.bind (yields_expect hp (by decide)) fun name hname => ?_
    exact .behind fun count => yields_pure hname
  · exact (yields_namedType hp).mono fun _ h => h.1

theorem yields_objectType : Yields tokens (objectType parse) fun t => t.IsWritten ∧ t.IsObject := by
  refine .either ?_ (yields_namedType hp)
  refine Yields.bind (yields_expect hp (by decide)) fun name hname => .behind fun _ => ?_
  refine .behind fun _ => .behind fun count => yields_pure ⟨hname, ?_⟩
  show 1 + count ≠ 0
  omega

theorem yields_typeArgument : Yields tokens (typeArgument parse) TypeArgument.IsWritten := by
  have hbounded (bound : Bound) :
      Yields tokens (do return TypeArgument.bounded bound (← objectType parse))
        TypeArgument.IsWritten :=
    (yields_objectType hp).bind fun t ht => yields_pure ⟨ht.2, ht.1⟩
  refine .either (.either (hbounded .upper) (.either (hbounded .lower) (yields_pure trivial))) ?_
  exact (yields_objectType hp).bind fun t ht => yields_pure ⟨ht.2, ht.1⟩

theorem yields_segment : Yields tokens (segment parse) Segment.IsWritten := by
  refine (yields_identifier hp).bind fun name hname => .either ?_ (yields_pure ⟨hname, trivial⟩)
  have harguments : Yields tokens (typeArguments parse) fun as => ∀ a ∈ as, a.IsWritten :=
    .behind fun _ => .listed (yields_typeArgument hp)
  exact harguments.bind fun as has => yields_pure ⟨hname, TypeArgument.areWritten_iff.2 has⟩

theorem yields_typeList :
    Yields tokens (typeList parse) fun ts => ∀ t ∈ ts, t.IsWritten ∧ t.IsObject :=
  (Yields.separated (yields_objectType hp)).mono fun _ h => h.2

theorem yields_typeParameters? :
    Yields tokens (typeParameters? parse) fun names => ∀ n ∈ names, IsWordOf .identifier n := by
  refine .either (.behind fun _ => .listed ?_) (yields_pure nofun)
  refine (yields_identifier hp).bind fun name hname => .either (.behind fun _ => ?_) ?_
  · exact yields_pure hname
  · exact yields_pure hname

/-! ### Headings -/

theorem yields_qualifiedName : Yields tokens qualifiedName IsQualified :=
  (Yields.separated (yields_identifier hp)).bind fun names h => yields_pure ⟨names, h.1, h.2, rfl⟩

theorem yields_throwsClause :
    Yields tokens throwsClause fun names => ∀ n ∈ names, IsQualified n :=
  .either ((Yields.separated (yields_qualifiedName hp)).mono fun _ h => h.2) (yields_pure nofun)

theorem yields_methodTail :
    Yields tokens (methodTail parse) fun tail => ∀ n ∈ tail.1, IsQualified n := by
  refine (yields_throwsClause hp).bind fun throws hthrows => .either ?_ ?_
  · exact .behind fun _ => yields_pure hthrows
  · exact .behind fun _ => yields_pure hthrows

theorem yields_parameter : Yields tokens (parameter parse) Parameter.IsWritten := by
  refine .behind fun marks => (yields_type hp).bind fun type htype => .behind fun varargs => ?_
  refine (yields_identifier hp).bind fun name hname => .behind fun behind => yields_pure ?_
  exact ⟨htype.addDimensions behind, hname⟩

theorem yields_parameters : Yields tokens (parameters parse) fun ps =>
    (∀ p ∈ ps, p.IsWritten) ∧ ps.IsChain fun p _ => p.varargs = false := by
  refine .behind fun _ => .either (yields_pure ⟨nofun, .nil⟩) ?_
  refine (yields_parameter hp).bind fun first hfirst => ?_
  refine Yields.bind (.chain (R := fun p _ => p.varargs = false) hfirst fun last _ => ?_)
    fun all hall => ?_
  · -- a parameter that takes any number of arguments ends the list
    cases hvarargs : last.varargs with
    | true => exact yields_pure nofun
    | false =>
      refine .either ?_ (yields_pure nofun)
      exact (yields_parameter hp).found.mono fun _ h p hp => ⟨h p hp, rfl⟩
  · exact .behind fun _ => yields_pure hall.2

theorem yields_front :
    Yields tokens (front parse) fun f => ∀ m ∈ Mark.words f.marks, IsWordOf .modifier m := by
  refine .behind fun first => .behind fun token => ?_
  have hmarks : Yields tokens (collect do
      if ← seesClass .modifier then return some (Mark.modifier (← expect (.ofClass .modifier)))
      else if ← seesAnnotationAt 0 then return some (.use (← parse .annotationUse))
      else return none)
      fun marks => ∀ mark ∈ marks, ∀ m, mark = .modifier m → IsWordOf .modifier m := by
    refine .collect (.either ?_ (.either ?_ yields_none))
    · refine Yields.bind (yields_expect hp (by decide)) fun word hword => yields_pure ?_
      rintro mark ⟨⟩ m ⟨⟩
      exact hword
    · refine .behind fun use => yields_pure ?_
      rintro mark ⟨⟩ m h
      cases h
  refine hmarks.bind fun marks h => yields_pure fun m hm => ?_
  obtain ⟨mark, hmark, hword⟩ := List.mem_filterMap.1 hm
  cases mark with
  | modifier word =>
    obtain rfl := Option.some.inj hword
    exact h _ hmark word rfl
  | use => cases hword

/-! ### Bodies of declarations -/

theorem yields_methodEnd {result : Option TypeRef} {name : String} {typeParameters : List String}
    {parameters : List Parameter} (hresult : ∀ t ∈ result, t.IsWritten)
    (hname : IsWordOf .identifier name) (htypes : ∀ n ∈ typeParameters, IsWordOf .identifier n)
    (hparameters : (∀ p ∈ parameters, p.IsWritten) ∧
      parameters.IsChain fun p _ => p.varargs = false) :
    Yields tokens (do
      let (throws, body) ← methodTail parse
      return .method result { name, typeParameters, parameters, throws, body })
      Body.IsWrittenThrough := by
  refine (yields_methodTail hp).bind fun tail hthrows => yields_pure ⟨⟨hresult, ?_⟩, ?_⟩
  · exact ⟨hname, htypes, hparameters.1, hparameters.2, hthrows⟩
  · rw [Body.nested]
    exact nofun

theorem yields_voidMethod {typeParameters : List String}
    (htypes : ∀ n ∈ typeParameters, IsWordOf .identifier n) :
    Yields tokens (voidMethod parse typeParameters) Body.IsWrittenThrough := by
  refine (yields_identifier hp).bind fun name hname => ?_
  exact (yields_parameters hp).bind fun ps hps => yields_methodEnd hp nofun hname htypes hps

theorem yields_methodRest {result : TypeRef} {name : String} {typeParameters : List String}
    (hresult : result.IsWritten) (hname : IsWordOf .identifier name)
    (htypes : ∀ n ∈ typeParameters, IsWordOf .identifier n) :
    Yields tokens (methodRest parse result name typeParameters) Body.IsWrittenThrough := by
  refine (yields_parameters hp).bind fun ps hps => .behind fun behind => ?_
  refine yields_methodEnd hp (fun t ht => ?_) hname htypes hps
  obtain rfl := Option.some.inj ht
  exact hresult.addDimensions behind

theorem yields_constructorRest {typeParameters : List String}
    (htypes : ∀ n ∈ typeParameters, IsWordOf .identifier n) :
    Yields tokens (constructorRest parse typeParameters) Body.IsWrittenThrough := by
  refine (yields_identifier hp).bind fun name hname => (yields_parameters hp).bind fun ps hps => ?_
  refine (yields_throwsClause hp).bind fun throws hthrows => .behind fun _ => yields_pure ⟨?_, ?_⟩
  · exact ⟨hname, htypes, hps.1, hps.2, hthrows⟩
  · rw [Body.nested]
    exact nofun

omit hp in
theorem isWrittenThrough_field {t : TypeRef} (h : t.IsWritten) (declarators : List Declarator) :
    Body.IsWrittenThrough (.field t declarators) := by
  refine ⟨h, ?_⟩
  rw [Body.nested]
  exact nofun

omit hp in
theorem yields_fieldRest {t : TypeRef} (h : t.IsWritten) (name : String) :
    Yields tokens (fieldRest parse t name) Body.IsWrittenThrough :=
  .behind fun _ => .behind fun all => .behind fun _ => yields_pure (isWrittenThrough_field h all)

omit hp in
theorem yields_constantsRest {t : TypeRef} (h : t.IsWritten) (name : String) :
    Yields tokens (constantsRest parse t name) Body.IsWrittenThrough :=
  .behind fun _ => .behind fun all => yields_pure (isWrittenThrough_field h all)

/-- A type declaration from its members on. -/
theorem yields_typeRest {kind : DeclarationKind} {name : String} {typeParameters : List String}
    {parents interfaces : List TypeRef} (hname : IsWordOf .identifier name)
    (hparents : ∀ t ∈ parents, t.IsWritten ∧ (kind ≠ .classType → t.IsObject))
    (hinterfaces : ∀ t ∈ interfaces, t.IsWritten ∧ t.IsObject) :
    Yields tokens (do
      let (members, extent) ← measured (parse (.members kind))
      return .type kind name typeParameters parents interfaces members extent)
      Body.IsWrittenThrough := by
  refine .measured (hp.members kind) fun members extent hmembers => yields_pure ⟨?_, ?_⟩
  · exact ⟨hname, hparents, hinterfaces⟩
  · rw [Body.nested]
    exact hmembers

/-- A type declaration from the types that it implements on. -/
theorem yields_interfacesRest {kind : DeclarationKind} {name : String}
    {typeParameters : List String} {parents : List TypeRef} (hname : IsWordOf .identifier name)
    (hparents : ∀ t ∈ parents, t.IsWritten ∧ (kind ≠ .classType → t.IsObject)) :
    Yields tokens (do
      let interfaces ← if ← takesText "implements" then typeList parse else pure []
      let (members, extent) ← measured (parse (.members kind))
      return .type kind name typeParameters parents interfaces members extent)
      Body.IsWrittenThrough := by
  refine .either ?_ (yields_typeRest hp hname hparents nofun)
  exact (yields_typeList hp).bind fun ts hts => yields_typeRest hp hname hparents hts

theorem yields_classDeclaration : Yields tokens (classDeclaration parse) Body.IsWrittenThrough := by
  refine .behind fun _ => (yields_identifier hp).bind fun name hname => .behind fun types => ?_
  refine .either ?_ (yields_interfacesRest hp hname nofun)
  have hparents : Yields tokens (List.singleton <$> type parse)
      fun ts => ∀ t ∈ ts, t.IsWritten ∧ (DeclarationKind.classType ≠ .classType → t.IsObject) := by
    refine (yields_type hp).bind fun t ht => yields_pure ?_
    exact List.forall_mem_singleton.2 ⟨ht, fun h => absurd rfl h⟩
  exact hparents.bind fun ts hts => yields_interfacesRest hp hname hts

theorem yields_enumDeclaration : Yields tokens (enumDeclaration parse) Body.IsWrittenThrough := by
  refine .behind fun _ => (yields_identifier hp).bind fun name hname => ?_
  exact yields_interfacesRest hp hname nofun

theorem yields_interfaceDeclaration :
    Yields tokens (interfaceDeclaration parse) Body.IsWrittenThrough := by
  refine .behind fun _ => (yields_identifier hp).bind fun name hname => .behind fun types => ?_
  refine .either ?_ (yields_typeRest hp hname nofun nofun)
  refine (yields_typeList hp).bind fun ts hts => ?_
  exact yields_typeRest hp hname (fun t ht => ⟨(hts t ht).1, fun _ => (hts t ht).2⟩) nofun

theorem yields_annotationDeclaration :
    Yields tokens (annotationDeclaration parse) Body.IsWrittenThrough := by
  refine .behind fun _ => .behind fun _ => (yields_identifier hp).bind fun name hname => ?_
  exact yields_typeRest hp hname nofun nofun

theorem yields_typeBody? :
    Yields tokens (typeBody? parse) fun found => ∀ b ∈ found, b.IsWrittenThrough := by
  refine .either (yields_classDeclaration hp).found (.either (yields_enumDeclaration hp).found ?_)
  refine .either (yields_interfaceDeclaration hp).found (.either ?_ yields_none)
  exact (yields_annotationDeclaration hp).found

theorem yields_withFront {body : Parser (Option Body)}
    (hbody : Yields tokens body fun found => ∀ b ∈ found, b.IsWrittenThrough) :
    Yields tokens (withFront parse body) fun found => ∀ d ∈ found, ∀ e ∈ d.all, e.IsWritten := by
  refine (yields_front hp).bind fun front hfront => .behind fun position => ?_
  refine hbody.bind fun found hfound => ?_
  cases found with
  | none => exact yields_none
  | some body =>
    obtain ⟨hbody, hnested⟩ := hfound body rfl
    have hheader : Yields tokens (front.header position)
        fun header => ∀ m ∈ header.modifiers, IsWordOf .modifier m :=
      .behind fun stop => yields_pure hfront
    refine hheader.bind fun header hheader => yields_pure ?_
    rintro d ⟨⟩ e he
    rcases Declaration.mem_all.1 he with rfl | he
    · exact ⟨hheader, hbody⟩
    · exact hnested e he

theorem yields_typeDeclaration :
    Yields tokens (typeDeclaration parse) fun d => ∀ e ∈ d.all, e.IsWritten := by
  refine (yields_withFront hp (yields_typeBody? hp)).bind fun found hfound => ?_
  cases found with
  | none => exact yields_refuse _
  | some d => exact yields_pure (hfound d rfl)

/-! ### Members -/

theorem yields_memberBody : Yields tokens (memberBody parse) Body.IsWrittenThrough := by
  refine .either (yields_voidMethod hp nofun) (.either ?_ ?_)
  · refine (yields_typeParameters? hp).bind fun types htypes => ?_
    refine .either (yields_constructorRest hp htypes) (.either (yields_voidMethod hp htypes) ?_)
    refine (yields_type hp).bind fun t ht => (yields_identifier hp).bind fun name hname => ?_
    exact yields_methodRest hp ht hname htypes
  · refine (yields_typeBody? hp).bind fun found hfound => ?_
    cases found with
    | some body => exact yields_pure (hfound body rfl)
    | none =>
      refine .either (yields_constructorRest hp nofun) ?_
      refine (yields_type hp).bind fun t ht => (yields_identifier hp).bind fun name hname => ?_
      exact .either (yields_methodRest hp ht hname nofun) (yields_fieldRest ht name)

theorem yields_classMember :
    Yields tokens (classMember parse) fun found => ∀ d ∈ found, ∀ e ∈ d.all, e.IsWritten := by
  refine .either yields_none (.either (.behind fun _ => .behind fun _ => yields_none) ?_)
  refine .either (.behind fun _ => yields_none) ?_
  exact yields_withFront hp (yields_memberBody hp).found

theorem yields_interfaceMemberBody :
    Yields tokens (interfaceMemberBody parse) Body.IsWrittenThrough := by
  refine (yields_typeBody? hp).bind fun found hfound => ?_
  cases found with
  | some body => exact yields_pure (hfound body rfl)
  | none =>
    refine .either ?_ (.either (yields_voidMethod hp nofun) ?_)
    · refine (yields_typeParameters? hp).bind fun types htypes => ?_
      -- a generic method, from its name on
      have hrest (result : Option TypeRef) (hresult : ∀ t ∈ result, t.IsWritten) :
          Yields tokens (do
            let name ← identifier
            let parameters ← parameters parse
            let _ ← dimensions
            let (throws, body) ← methodTail parse
            return .method result { name, typeParameters := types, parameters, throws, body })
            Body.IsWrittenThrough := by
        refine (yields_identifier hp).bind fun name hname => ?_
        refine (yields_parameters hp).bind fun ps hps => .behind fun _ => ?_
        exact yields_methodEnd hp hresult hname htypes hps
      have hresult : Yields tokens (some <$> type parse) fun found => ∀ t ∈ found, t.IsWritten :=
        (yields_type hp).found
      exact .either (hrest none nofun) (hresult.bind hrest)
    · refine (yields_type hp).bind fun t ht => (yields_identifier hp).bind fun name hname => ?_
      refine .either (yields_methodRest hp ht hname nofun) ?_
      exact (yields_constantsRest ht name).bind fun body hbody => .behind fun _ => yields_pure hbody

theorem yields_interfaceMember :
    Yields tokens (interfaceMember parse) fun found => ∀ d ∈ found, ∀ e ∈ d.all, e.IsWritten :=
  .either yields_none (yields_withFront hp (yields_interfaceMemberBody hp).found)

theorem yields_annotationMemberBody :
    Yields tokens (annotationMemberBody parse) fun found => ∀ b ∈ found, b.IsWrittenThrough := by
  refine (yields_typeBody? hp).bind fun found hfound => ?_
  cases found with
  | some body => exact yields_pure hfound
  | none =>
    refine (yields_type hp).bind fun t ht => .behind fun name => .either ?_ ?_
    · refine .behind fun _ => .behind fun _ => .either (.behind fun _ => .behind fun _ => ?_) ?_
      · exact yields_none
      · exact .behind fun _ => yields_none
    · refine (yields_constantsRest ht name).bind fun body hbody => .behind fun _ => ?_
      exact (yields_pure hbody).found

omit hp in
theorem Yields.upTo {closer : String} {item : Parser α} (hitem : Yields tokens item P) :
    Yields tokens (upTo closer item) fun vs => ∀ v ∈ vs, P v :=
  .collect (.either yields_none hitem.found)

theorem yields_memberItems (kind : DeclarationKind) : Yields tokens (memberItems parse kind)
    fun items => ∀ found ∈ items, ∀ d ∈ found, ∀ e ∈ d.all, e.IsWritten := by
  cases kind with
  | classType => exact .upTo (yields_classMember hp)
  | recordType => exact .upTo (yields_classMember hp)
  | enumType =>
    exact .behind fun _ => .either (.upTo (yields_classMember hp)) (yields_pure nofun)
  | interfaceType => exact .upTo (yields_interfaceMember hp)
  | annotationType => exact .upTo (yields_withFront hp (yields_annotationMemberBody hp))

omit hp in
theorem areWrittenThrough_filterMap {items : List (Option Declaration)}
    (h : ∀ found ∈ items, ∀ d ∈ found, ∀ e ∈ d.all, e.IsWritten) :
    Declaration.AreWrittenThrough (items.filterMap id) := by
  refine Declaration.areWrittenThrough_iff.2 fun d hd => ?_
  obtain ⟨found, hfound, hd⟩ := List.mem_filterMap.1 hd
  exact h found hfound d hd

theorem yields_members (kind : DeclarationKind) :
    Yields tokens (members parse kind) Declaration.AreWrittenThrough := by
  refine .behind fun _ => (yields_memberItems hp kind).bind fun items hitems => .behind fun _ => ?_
  exact yields_pure (areWrittenThrough_filterMap hitems)

/-! ### Levels of nesting -/

/-- **One level of nesting keeps that declarations are made of words.** -/
theorem Writes.step : Writes tokens (step parse) where
  words := hp.words
  reference := (Yields.separated (yields_segment hp)).mono fun _ h =>
    ⟨h.1, Segment.areWritten_iff.2 h.2⟩
  members := yields_members hp
  typeDeclaration := yields_typeDeclaration hp

end

theorem writes_parseRule (hwords : ∀ t ∈ tokens, t.cls ∈ wordClasses → IsWordOf t.cls t.value)
    (depth : Nat) : Writes tokens (parseRule depth) := by
  induction depth with
  | zero =>
    exact ⟨hwords, fun _ => ensures_stop _, fun _ _ => ensures_stop _, fun _ => ensures_stop _⟩
  | succ depth ih => exact ih.step

/-- One round of the declarations of a unit gives what the parser of a declaration gives. -/
theorem yields_types_step {parse : Descend} {R : Option Declaration → Prop}
    (h : Yields tokens (topLevel parse) R) : Yields tokens (do
      match ← look 0 with
      | none => return none
      | some _ => return some (← needsMore (topLevel parse))) fun round => ∀ found ∈ round, R found :=
  fun c round c' hrun found hfound =>
    h c found c' ((ensures_types_step c round c' hrun).2 found hfound)

/-- Every declaration of a unit is made of words. -/
theorem areWrittenThrough_of_parseUnit
    (hwords : ∀ t ∈ tokens, t.cls ∈ wordClasses → IsWordOf t.cls t.value) {unit : CompilationUnit}
    (h : parseUnit tokens = .ok unit) : Declaration.AreWrittenThrough unit.types := by
  have hp := writes_parseRule hwords (depthBound tokens)
  have htop : Yields tokens (topLevel (parseRule (depthBound tokens)))
      fun found => ∀ d ∈ found, ∀ e ∈ d.all, e.IsWritten :=
    .either yields_none hp.typeDeclaration.found
  have hunit : Yields tokens (compilationUnit (parseRule (depthBound tokens)))
      fun unit => Declaration.AreWrittenThrough unit.types := by
    refine .behind fun package => .behind fun _ => ?_
    exact (yields_types_step htop).collect.bind fun items hitems =>
      yields_pure (areWrittenThrough_filterMap hitems)
  rw [parseUnit] at h
  split at h
  · rename_i c' hrun
    obtain rfl := Except.ok.inj h
    exact hunit _ _ _ hrun
  · cases h

/-- **Every declaration of a source that was parsed is made of words.** -/
theorem areWrittenThrough_of_parseTree {code : WideString} {src : TokenText} {tree : CompilationUnit}
    (h : parseTree code = .ok (src, tree)) : Declaration.AreWrittenThrough tree.types := by
  obtain ⟨data, tokens, hsource, rfl, hunit⟩ := exists_of_parseTree h
  obtain ⟨items, hreading, rfl⟩ := exists_reading_of_ofSource hsource
  refine areWrittenThrough_of_parseUnit (fun t ht => ?_) hunit
  exact hreading.isWordOf t (List.mem_toArray.1 ht)

end SourceDoc.Grammar
