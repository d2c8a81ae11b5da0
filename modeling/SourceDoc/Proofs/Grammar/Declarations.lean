import SourceDoc.Grammar.Unit
import SourceDoc.Proofs.Grammar.Statements

/-!
# What the grammar of declarations keeps

Fields and methods end with semicolons, so members have to begin as high as these demand; the members
of a type stand in braces and do.  A type declaration needs no more than the height of its brace.
-/

namespace SourceDoc.Grammar

open SourceDoc.Tree SourceDoc.Grammar.Parser SourceDoc.Token

variable {tokens : Array Token} {g : Ground} {a : Nat} {parse : Descend} {c : Cursor}

theorem keeps_throwsClause (hproper : ∀ t ∈ tokens, Proper t) :
    Keeps tokens g a (fun _ => a) throwsClause c :=
  Keeps.ifTakesWord (by decide)
    (fun _ => Keeps.separated (by decide) fun _ => keeps_qualifiedName hproper)
    (fun _ => keeps_pure _ le_rfl)

section
variable (hp : Kept tokens parse) (hf : g.floor ≤ a) (hb : g.gauge.brace ≤ a)
include hp hf hb

/-! ### Types -/

/-- The body of a type, and what is made of it. -/
theorem keeps_typeRest {kind : DeclarationKind} {f : List Declaration → Extent → Body} :
    Keeps tokens g a (fun _ => a) (do
      let (members, extent) ← measured (parse (.members kind))
      return f members extent) c :=
  (hp.keeps (.members kind) hf hb).measured.bind fun _ _ _ => keeps_pure _ le_rfl

/-- The interfaces of a class or an enum, and the rest behind them. -/
theorem keeps_interfacesRest {kind : DeclarationKind}
    {f : List TypeRef → List Declaration → Extent → Body} :
    Keeps tokens g a (fun _ => a) (do
      let interfaces ← if ← takesText "implements" then typeList parse else pure []
      let (members, extent) ← measured (parse (.members kind))
      return f interfaces members extent) c := by
  refine Keeps.ifTakesWord (by decide) (fun _ => ?_) (fun _ => ?_)
  · exact (keeps_typeList hp hf).bind fun _ _ _ => keeps_typeRest hp hf hb
  · exact keeps_typeRest hp hf hb

theorem keeps_classDeclaration : Keeps tokens g a (fun _ => a) (classDeclaration parse) c := by
  refine (keeps_word (by decide)).bind fun _ _ _ => ?_
  refine (keeps_identifier hp.proper).bind fun _ _ _ => ?_
  refine (keeps_typeParameters? hp hf).bind fun _ _ _ => ?_
  refine Keeps.ifTakesWord (by decide) (fun _ => ?_) (fun _ => keeps_interfacesRest hp hf hb)
  exact (keeps_type hp hf).map.bind fun _ _ _ => keeps_interfacesRest hp hf hb

theorem keeps_enumDeclaration : Keeps tokens g a (fun _ => a) (enumDeclaration parse) c := by
  refine (keeps_word (by decide)).bind fun _ _ _ => ?_
  exact (keeps_identifier hp.proper).bind fun _ _ _ => keeps_interfacesRest hp hf hb

theorem keeps_interfaceDeclaration :
    Keeps tokens g a (fun _ => a) (interfaceDeclaration parse) c := by
  refine (keeps_word (by decide)).bind fun _ _ _ => ?_
  refine (keeps_identifier hp.proper).bind fun _ _ _ => ?_
  refine (keeps_typeParameters? hp hf).bind fun _ _ _ => ?_
  refine Keeps.ifTakesWord (by decide) (fun _ => ?_) (fun _ => ?_)
  · exact (keeps_typeList hp hf).bind fun _ _ _ => keeps_typeRest hp hf hb
  · exact keeps_typeRest hp hf hb

theorem keeps_annotationDeclaration :
    Keeps tokens g a (fun _ => a) (annotationDeclaration parse) c := by
  refine (keeps_word (by decide)).bind fun _ _ _ => (keeps_word (by decide)).bind fun _ _ _ => ?_
  exact (keeps_identifier hp.proper).bind fun _ _ _ => keeps_typeRest hp hf hb

theorem keeps_typeBody? : Keeps tokens g a (fun _ => a) (typeBody? parse) c := by
  refine Keeps.ifPeek (peeks_seesText _) (fun _ => ?_) ?_
  · exact (keeps_classDeclaration hp hf hb).bind fun _ _ _ => keeps_pure _ le_rfl
  refine Keeps.ifPeek (peeks_seesText _) (fun _ => ?_) ?_
  · exact (keeps_enumDeclaration hp hf hb).bind fun _ _ _ => keeps_pure _ le_rfl
  refine Keeps.ifPeek (peeks_seesText _) (fun _ => ?_) ?_
  · exact (keeps_interfaceDeclaration hp hf hb).bind fun _ _ _ => keeps_pure _ le_rfl
  refine Keeps.ifPeek peeks_seesAnnotationType (fun _ => ?_) (keeps_pure _ le_rfl)
  exact (keeps_annotationDeclaration hp hf hb).bind fun _ _ _ => keeps_pure _ le_rfl

omit hb in
theorem keeps_withFront {body : Parser (Option Body)}
    (hbody : ∀ c, Keeps tokens g a (fun _ => a) body c) :
    Keeps tokens g a (fun _ => a) (withFront parse body) c := by
  refine (keeps_front hp hf).bind fun front _ _ => Keeps.peek peeks_here fun _ _ => ?_
  refine (hbody _).bind fun found _ _ => ?_
  cases found with
  | none => exact keeps_pure _ le_rfl
  | some body => exact (keeps_header front _).bind fun _ _ _ => keeps_pure _ le_rfl

theorem keeps_typeDeclaration : Keeps tokens g a (fun _ => a) (typeDeclaration parse) c := by
  refine (keeps_withFront hp hf fun _ => keeps_typeBody? hp hf hb).bind fun found _ _ => ?_
  cases found with
  | none => exact keeps_refuse _
  | some declaration => exact keeps_pure _ le_rfl

/-! ### Values of fields -/

theorem keeps_constantRest (name : String) :
    Keeps tokens g a (fun _ => a) (constantRest parse name) c := by
  refine keeps_dimensions.bind fun _ _ _ => (keeps_word (by decide)).bind fun _ _ _ => ?_
  exact (hp.keeps .initializer hf hb).measured.bind fun _ _ _ => keeps_pure _ le_rfl

theorem keeps_constant : Keeps tokens g a (fun _ => a) (constant parse) c :=
  (keeps_identifier hp.proper).bind fun name _ _ => keeps_constantRest hp hf hb name

omit hp hf hb in
theorem keeps_further {item : Parser Declarator} (hitem : ∀ c, Keeps tokens g a (fun _ => a) item c)
    (first : Declarator) : Keeps tokens g a (fun _ => a) (chain (fun _ => do
      if ← takesText "," then return some (← item) else return none) first) c :=
  Keeps.chain fun _ _ => Keeps.ifTakesWord (by decide)
    (fun c => (hitem c).bind fun _ _ _ => keeps_pure _ le_rfl) (fun _ => keeps_pure _ le_rfl)

theorem keeps_constantsRest (type : TypeRef) (name : String) :
    Keeps tokens g a (fun _ => a) (constantsRest parse type name) c := by
  refine (keeps_constantRest hp hf hb name).bind fun first _ _ => ?_
  exact (keeps_further (fun _ => keeps_constant hp hf hb) first).bind
    fun _ _ _ => keeps_pure _ le_rfl

theorem keeps_constructorRest (typeParameters : List String) :
    Keeps tokens g a (fun _ => a) (constructorRest parse typeParameters) c := by
  refine (keeps_identifier hp.proper).bind fun _ _ _ => ?_
  refine (keeps_parameters hp hf).bind fun _ _ _ => ?_
  refine (keeps_throwsClause hp.proper).bind fun _ _ _ => ?_
  exact (hp.keeps .block hf hb).measured.bind fun _ _ _ => keeps_pure _ le_rfl

end

/-! ### Members -/

section
variable (hp : Kept tokens parse) (hf : g.floor ≤ a) (hb : g.gauge.brace ≤ a)
  (hs : g.gauge.semicolon ≤ a)
include hp hf hb hs

theorem keeps_methodTail : Keeps tokens g a (fun _ => a) (methodTail parse) c := by
  refine (keeps_throwsClause hp.proper).bind fun _ _ _ => ?_
  refine Keeps.ifPeek (peeks_seesText _) (fun _ => ?_) ?_
  · exact (hp.keeps .block hf hb).measured.bind fun _ _ _ => keeps_pure _ le_rfl
  · exact (keeps_symbol (Ground.step_semicolon hs)).bind fun _ _ _ => keeps_pure _ le_rfl

theorem keeps_voidMethod (typeParameters : List String) :
    Keeps tokens g a (fun _ => a) (voidMethod parse typeParameters) c := by
  refine (keeps_identifier hp.proper).bind fun _ _ _ => ?_
  refine (keeps_parameters hp hf).bind fun _ _ _ => ?_
  exact (keeps_methodTail hp hf hb hs).bind fun _ _ _ => keeps_pure _ le_rfl

theorem keeps_methodRest (result : TypeRef) (name : String) (typeParameters : List String) :
    Keeps tokens g a (fun _ => a) (methodRest parse result name typeParameters) c := by
  refine (keeps_parameters hp hf).bind fun _ _ _ => keeps_dimensions.bind fun _ _ _ => ?_
  exact (keeps_methodTail hp hf hb hs).bind fun _ _ _ => keeps_pure _ le_rfl

theorem keeps_fieldRest (type : TypeRef) (name : String) :
    Keeps tokens g a (fun _ => a) (fieldRest parse type name) c := by
  refine (keeps_declaratorRest hp hf hb).bind fun _ _ _ => ?_
  refine (keeps_further (fun _ => keeps_declarator hp hf hb) _).bind fun _ _ _ => ?_
  exact (keeps_symbol (Ground.step_semicolon hs)).bind fun _ _ _ => keeps_pure _ le_rfl

theorem keeps_memberBody : Keeps tokens g a (fun _ => a) (memberBody parse) c := by
  refine Keeps.ifTakesWord (by decide) (fun _ => keeps_voidMethod hp hf hb hs _) fun _ => ?_
  refine Keeps.ifPeek (peeks_seesText _) (fun _ => ?_) ?_
  · refine (keeps_typeParameters? hp hf).bind fun _ _ _ => ?_
    refine Keeps.ifPeek (peeks_sees _) (fun _ => keeps_constructorRest hp hf hb _) ?_
    refine Keeps.ifTakesWord (by decide) (fun _ => keeps_voidMethod hp hf hb hs _) fun _ => ?_
    refine (keeps_type hp hf).bind fun _ _ _ => (keeps_identifier hp.proper).bind fun _ _ _ => ?_
    exact keeps_methodRest hp hf hb hs _ _ _
  refine (keeps_typeBody? hp hf hb).bind fun found _ _ => ?_
  cases found with
  | some body => exact keeps_pure _ le_rfl
  | none =>
    refine Keeps.ifPeek (peeks_sees _) (fun _ => keeps_constructorRest hp hf hb _) ?_
    refine (keeps_type hp hf).bind fun _ _ _ => (keeps_identifier hp.proper).bind fun _ _ _ => ?_
    exact Keeps.ifPeek (peeks_seesText _) (fun _ => keeps_methodRest hp hf hb hs _ _ _)
      (keeps_fieldRest hp hf hb hs _ _)

theorem keeps_classMember : Keeps tokens g a (fun _ => a) (classMember parse) c := by
  have hblock : ∀ {c : Cursor}, Keeps tokens g a (fun _ => a)
      (do parse .block; return (none : Option Declaration)) c :=
    (hp.keeps .block hf hb).bind fun _ _ _ => keeps_pure _ le_rfl
  refine Keeps.ifTakesText (Ground.step_semicolon hs) (fun _ => keeps_pure _ le_rfl) fun _ => ?_
  refine Keeps.ifPeek (peeks_sees _) (fun _ => ?_) ?_
  · exact (keeps_word (by decide)).bind fun _ _ _ => hblock
  refine Keeps.ifPeek (peeks_seesText _) (fun _ => hblock) ?_
  exact keeps_withFront hp hf fun _ =>
    (keeps_memberBody hp hf hb hs).bind fun _ _ _ => keeps_pure _ le_rfl

/-- A generic method of an interface behind its result. -/
theorem keeps_genericRest (result : Option TypeRef) (typeParameters : List String) :
    Keeps tokens g a (fun _ => a) (do
      let name ← identifier
      let parameters ← parameters parse
      let _ ← dimensions
      let (throws, body) ← methodTail parse
      return Body.method result { name, typeParameters, parameters, throws, body }) c := by
  refine (keeps_identifier hp.proper).bind fun _ _ _ => ?_
  refine (keeps_parameters hp hf).bind fun _ _ _ => keeps_dimensions.bind fun _ _ _ => ?_
  exact (keeps_methodTail hp hf hb hs).bind fun _ _ _ => keeps_pure _ le_rfl

theorem keeps_interfaceMemberBody :
    Keeps tokens g a (fun _ => a) (interfaceMemberBody parse) c := by
  refine (keeps_typeBody? hp hf hb).bind fun found _ _ => ?_
  cases found with
  | some body => exact keeps_pure _ le_rfl
  | none =>
    refine Keeps.ifPeek (peeks_seesText _) (fun _ => ?_) ?_
    · refine (keeps_typeParameters? hp hf).bind fun _ _ _ => ?_
      refine Keeps.ifTakesWord (by decide) 
        (fun _ => keeps_genericRest hp hf hb hs none _) (fun _ => ?_)
      exact (keeps_type hp hf).map.bind fun result _ _ =>
        keeps_genericRest hp hf hb hs result _
    refine Keeps.ifTakesWord (by decide) (fun _ => keeps_voidMethod hp hf hb hs _) fun _ => ?_
    refine (keeps_type hp hf).bind fun _ _ _ => (keeps_identifier hp.proper).bind fun _ _ _ => ?_
    refine Keeps.ifPeek (peeks_seesText _) (fun _ => keeps_methodRest hp hf hb hs _ _ _) ?_
    refine (keeps_constantsRest hp hf hb _ _).bind fun _ _ _ => ?_
    exact (keeps_symbol (Ground.step_semicolon hs)).bind fun _ _ _ => keeps_pure _ le_rfl

theorem keeps_annotationMemberBody :
    Keeps tokens g a (fun _ => a) (annotationMemberBody parse) c := by
  have hend : ∀ {body : Option Body} {c : Cursor},
      Keeps tokens g a (fun _ => a) (do symbol ";"; return body) c :=
    (keeps_symbol (Ground.step_semicolon hs)).bind fun _ _ _ => keeps_pure _ le_rfl
  refine (keeps_typeBody? hp hf hb).bind fun found _ _ => ?_
  cases found with
  | some body => exact keeps_pure _ le_rfl
  | none =>
    refine (keeps_type hp hf).bind fun _ _ _ => (keeps_identifier hp.proper).bind fun _ _ _ => ?_
    refine Keeps.ifTakesText (Ground.step_round a) (fun _ => ?_) (fun _ => ?_)
    · refine (keeps_symbol (Ground.step_unround a)).bind fun _ _ _ => ?_
      refine keeps_dimensions.bind fun _ _ _ => ?_
      refine Keeps.ifTakesWord (by decide) (fun _ => ?_) (fun _ => hend)
      exact (hp.keeps .elementValue hf hb).bind fun _ _ _ => hend
    · exact (keeps_constantsRest hp hf hb _ _).bind fun _ _ _ => hend

theorem keeps_interfaceMember : Keeps tokens g a (fun _ => a) (interfaceMember parse) c := by
  refine Keeps.ifTakesText (Ground.step_semicolon hs) (fun _ => keeps_pure _ le_rfl) fun _ => ?_
  exact keeps_withFront hp hf fun _ =>
    (keeps_interfaceMemberBody hp hf hb hs).bind fun _ _ _ => keeps_pure _ le_rfl

end

/-! ### Bodies of types -/

section
variable (hp : Kept tokens parse) (hf : g.floor ≤ a) (hb : g.gauge.brace ≤ a)
include hp hf hb

theorem keeps_enumConstant : Keeps tokens g a (fun _ => a) (enumConstant parse) c := by
  have hrest : ∀ {c : Cursor}, Keeps tokens g a (fun _ => a)
      (do let _ ← identifier; arguments? parse; classBody? parse) c := by
    refine (keeps_identifier hp.proper).bind fun _ _ _ => ?_
    exact (keeps_arguments? hp hf hb).bind fun _ _ _ => keeps_classBody? hp hf hb
  refine Keeps.ifPeek (peeks_seesClass _) (fun _ => ?_) hrest
  exact (keeps_annotations hp hf).bind fun _ _ _ => hrest

theorem keeps_enumConstants : Keeps tokens g a (fun _ => a) (enumConstants parse) c := by
  refine Keeps.ifTakesWord (by decide) (fun _ => keeps_pure _ le_rfl) fun _ => ?_
  refine Keeps.ifPeek (peeks_seesAny _) (fun _ => keeps_pure _ le_rfl) ?_
  refine (keeps_enumConstant hp hf hb).bind fun _ _ _ => ?_
  refine (Keeps.collect fun _ => ?_).bind fun _ _ _ => keeps_pure _ le_rfl
  refine Keeps.ifNotTakes (.word (by decide) .nil) (fun _ => keeps_pure _ le_rfl) fun _ => ?_
  refine Keeps.ifPeek (peeks_seesAny _) (fun _ => keeps_pure _ le_rfl) ?_
  exact (keeps_enumConstant hp hf hb).bind fun _ _ _ => keeps_pure _ le_rfl

end

theorem keeps_memberItems (hp : Kept tokens parse) (hf : g.floor ≤ a) (hb : g.gauge.brace ≤ a)
    (hs : g.gauge.semicolon ≤ a) (kind : DeclarationKind) :
    Keeps tokens g a (fun _ => a) (memberItems parse kind) c := by
  have hclass : ∀ {c : Cursor}, Keeps tokens g a (fun _ => a)
      (upTo closeBrace (classMember parse)) c :=
    Keeps.upTo fun _ => keeps_classMember hp hf hb hs
  cases kind with
  | classType => exact hclass
  | recordType => exact hclass
  | enumType =>
    refine (keeps_enumConstants hp hf hb).bind fun _ _ _ => ?_
    exact Keeps.ifTakesText (Ground.step_semicolon hs) (fun _ => hclass)
      (fun _ => keeps_pure _ le_rfl)
  | interfaceType => exact Keeps.upTo fun _ => keeps_interfaceMember hp hf hb hs
  | annotationType =>
    exact Keeps.upTo fun _ => keeps_withFront hp hf fun _ => keeps_annotationMemberBody hp hf hb hs

/-- Braces lift what stands in them as high as semicolons demand. -/
theorem keeps_members (hp : Kept tokens parse) (hf : g.floor ≤ a) (hb : g.gauge.brace ≤ a)
    (kind : DeclarationKind) : Keeps tokens g a (fun _ => a) (members parse kind) c := by
  have hsemicolon := g.gauge.semicolon_le
  refine (keeps_symbol (Ground.step_brace hb)).bind fun _ _ _ => ?_
  refine (keeps_memberItems hp (by omega) (by omega) (by omega) kind).bind fun _ _ _ => ?_
  exact (keeps_symbol (Ground.step_unbrace a)).bind fun _ _ _ => keeps_pure _ le_rfl

/-! ### All rules -/

/-- If all rules keep their heights within a depth, they do so one level deeper. -/
theorem Kept.step (hp : Kept tokens parse) : Kept tokens (step parse) where
  proper := hp.proper
  keeps := fun rule c hf hneed => by
    cases rule with
    | reference => exact keeps_reference hp hf
    | annotationUse => exact keeps_annotationUse hp hf
    | elementValue => exact keeps_elementValue hp hf hneed
    | expression => exact keeps_expression hp hf hneed
    | conditional => exact keeps_conditional hp hf hneed
    | operand => exact keeps_operand hp hf hneed
    | initializer => exact keeps_initializer hp hf hneed
    | block => exact keeps_block hp hf hneed
    | blockStatement =>
      obtain ⟨hb, hs⟩ := Nat.max_le.1 hneed
      exact keeps_blockStatement hp hf hb hs
    | statement =>
      obtain ⟨hb, hs⟩ := Nat.max_le.1 hneed
      exact keeps_statement hp hf hb hs
    | members kind => exact keeps_members hp hf hneed kind
    | typeDeclaration => exact keeps_typeDeclaration hp hf hneed

/-- **All rules of the grammar end as high as they begin, at any depth.** -/
theorem kept_parseRule (hproper : ∀ t ∈ tokens, Proper t) (depth : Nat) :
    Kept tokens (parseRule depth) := by
  induction depth with
  | zero => exact ⟨hproper, fun _ _ _ _ => keeps_stop _⟩
  | succ depth ih => exact ih.step

end SourceDoc.Grammar
