import SourceDoc.Grammar.Expressions
import SourceDoc.Proofs.Grammar.Annotations

/-!
# What the grammar of expressions keeps

An expression may contain braces, of lambdas and of classes, so it has to begin as high as braces
demand.  Semicolons stand in these braces only.
-/

namespace SourceDoc.Grammar

open SourceDoc.Grammar.Parser SourceDoc.Token

variable {tokens : Array Token} {g : Ground} {a : Nat} {parse : Descend} {c : Cursor}

/-! ### Operators -/

theorem peeks_seesAny (values : List String) : Peeks (seesAny values) :=
  (peeks_look 0).bind fun _ => peeks_pure _

/-- The token that was seen has one of the texts. -/
theorem exists_of_seesAny {values : List String} {c' : Cursor}
    (h : seesAny values tokens c = .done true c') :
    ∃ t, tokens[c.next]? = some t ∧ t.value ∈ values := by
  have hany : (tokens[c.next]?.any fun token => values.contains token.value) = true := by
    cases hseen : tokens[c.next]?.any fun token => values.contains token.value with
    | true => rfl
    | false =>
      have hrun : seesAny values tokens c = .done false c := by rw [← hseen]; rfl
      rw [hrun] at h
      cases h
  cases ht : tokens[c.next]? with
  | none => rw [ht] at hany; cases hany
  | some t =>
    rw [ht] at hany
    exact ⟨t, rfl, List.contains_iff_mem.1 hany⟩

/-- A token that was seen to have a text that is no fence is read without climbing. -/
theorem keeps_advance_of_seesAny {values : List String} {c' : Cursor}
    (hvalues : ∀ v ∈ values, v ∉ Gauge.fences) (h : seesAny values tokens c = .done true c') :
    Keeps tokens g a (fun _ => a) advance c := by
  obtain ⟨t, ht, hmem⟩ := exists_of_seesAny h
  refine keeps_advance fun u hu => ?_
  obtain rfl : t = u := Option.some.inj (ht.symm.trans hu)
  exact Ground.step_of_notMem (hvalues _ hmem) a

theorem keeps_skipAny {values : List String} (hvalues : ∀ v ∈ values, v ∉ Gauge.fences) :
    Keeps tokens g a (fun _ => a) (skipAny values) c := by
  refine (Keeps.collect fun _ => ?_).bind fun _ _ _ => keeps_pure _ le_rfl
  refine Keeps.ifPeek (peeks_seesAny _) (fun h => ?_) (keeps_pure _ le_rfl)
  exact (keeps_advance_of_seesAny hvalues h).bind fun _ _ _ => keeps_pure _ le_rfl

theorem keeps_seesSelector : Keeps tokens g a (fun _ => a) seesSelector c :=
  Keeps.peek (peeks_look 0) fun token _ => by
    cases token with
    | none => exact keeps_stop _
    | some token => exact keeps_pure _ le_rfl

theorem keeps_infixOperator {c' : Cursor} (h : seesAny infixOperators tokens c = .done true c') :
    Keeps tokens g a (fun _ => a) infixOperator c := by
  refine (keeps_advance_of_seesAny (by decide) h).bind fun operator _ _ => ?_
  split
  · refine Keeps.ifTakesWord (by decide) (fun _ => ?_) (fun _ => keeps_pure _ le_rfl)
    exact (keeps_takesWord (by decide)).bind fun _ _ _ => keeps_pure _ le_rfl
  · exact keeps_pure _ le_rfl

section
variable (hproper : ∀ t ∈ tokens, Proper t)
include hproper

/-- A literal is no separator. -/
theorem keeps_literal {token : Option Token} (hlook : look 0 tokens c = .done token c)
    (hliteral : token.any (·.cls.isLiteral) = true) :
    Keeps tokens g a (fun _ => a) advance c := by
  refine keeps_advance fun t ht => Ground.step_of_notMem ?_ a
  have htoken : look 0 tokens c = .done tokens[c.next]? c := rfl
  rw [hlook, ht] at htoken
  obtain ⟨rfl, -⟩ := Reply.done.inj htoken
  refine value_notMem_fences (hproper t (Array.mem_of_getElem? ht)) fun hcls => ?_
  rw [Option.any_some, hcls] at hliteral
  cases hliteral

/-- No declaration begins with a parenthesis. -/
theorem resumable_of_seesText_round {c' : Cursor} (h : seesText "(" tokens c = .done true c') :
    Resumable tokens c.next := by
  rw [seesText, sees_eq, Reply.done.injEq] at h
  obtain ⟨⟨t, ht, hvalue⟩, -⟩ := exists_of_fitsFrom_text h.1
  have hcls : t.cls = .separator :=
    (hproper t (Array.mem_of_getElem? ht)).mark (by rw [hvalue]; decide)
  refine .inr ⟨c.next, t, le_rfl, fun j hlo hhi => by omega, ht, ?_, ?_, ?_⟩
  · rw [hcls]; decide
  · rw [hcls]; decide
  · rw [hvalue]; decide

end

section
variable (hp : Kept tokens parse) (hf : g.floor ≤ a) (hb : g.gauge.brace ≤ a)
include hp hf hb

/-! ### Arguments and suffixes -/

/-- An expression within brackets. -/
theorem keeps_expression_within (b : Nat) :
    Keeps tokens g (a + b) (fun _ => a + b) (parse .expression) c :=
  hp.keeps .expression (hf.trans (Nat.le_add_right _ _)) (hb.trans (Nat.le_add_right _ _))

theorem keeps_arguments : Keeps tokens g a (fun _ => a) (arguments parse) c := by
  refine (keeps_symbol (Ground.step_round a)).bind fun _ _ _ => ?_
  refine Keeps.ifTakesText (Ground.step_unround a) (fun _ => keeps_pure _ le_rfl) fun _ => ?_
  refine Keeps.bind (Keeps.separated (by decide) fun _ => ?_) fun _ _ _ => ?_
  · exact keeps_expression_within hp hf hb _
  · exact keeps_symbol (Ground.step_unround a)

theorem keeps_arguments? : Keeps tokens g a (fun _ => a) (arguments? parse) c :=
  Keeps.ifPeek (peeks_seesText _) (fun _ => keeps_arguments hp hf hb) (keeps_pure _ le_rfl)

theorem keeps_classBody? : Keeps tokens g a (fun _ => a) (classBody? parse) c :=
  Keeps.ifPeek (peeks_seesText _)
    (fun _ => (hp.keeps (.members .classType) hf hb).bind fun _ _ _ => keeps_pure _ le_rfl)
    (keeps_pure _ le_rfl)

theorem keeps_parenthesized : Keeps tokens g a (fun _ => a) (parenthesized parse) c := by
  refine (keeps_symbol (Ground.step_round a)).bind fun _ _ _ => ?_
  refine (keeps_expression_within hp hf hb _).bind fun _ _ _ => ?_
  exact keeps_symbol (Ground.step_unround a)

theorem keeps_superSuffix : Keeps tokens g a (fun _ => a) (superSuffix parse) c := by
  refine Keeps.ifTakesWord (by decide) (fun _ => ?_) (fun _ => keeps_arguments hp hf hb)
  refine (keeps_plainArguments? hp hf).bind fun _ _ _ => ?_
  exact (keeps_identifier hp.proper).bind fun _ _ _ => keeps_arguments? hp hf hb

theorem keeps_explicitSuffix : Keeps tokens g a (fun _ => a) (explicitSuffix parse) c := by
  refine Keeps.ifTakesWord (by decide) (fun _ => keeps_superSuffix hp hf hb) fun _ => ?_
  exact (keeps_identifier hp.proper).bind fun _ _ _ => keeps_arguments hp hf hb

/-! ### New objects and arrays -/

theorem keeps_arrayInitializer : Keeps tokens g a (fun _ => a) (arrayInitializer parse) c := by
  have hitem : ∀ c, Keeps tokens g (a + g.gauge.curly) (fun _ => a + g.gauge.curly)
      (do parse .initializer; unless ← seesText closeBrace do symbol ",") c := fun c =>
    (hp.keeps .initializer (hf.trans (Nat.le_add_right _ _))
      (hb.trans (Nat.le_add_right _ _))).bind fun _ _ _ =>
      Keeps.ifPeek (peeks_seesText _) (fun _ => keeps_pure _ le_rfl) (keeps_word (by decide))
  refine (keeps_symbol (Ground.step_brace hb)).bind fun _ _ _ => ?_
  refine Keeps.ifTakesWord (by decide) (fun _ => ?_) fun _ => ?_
  · exact (keeps_symbol (Ground.step_unbrace a)).bind fun _ _ _ => keeps_pure _ le_rfl
  refine Keeps.ifTakesText (Ground.step_unbrace a) (fun _ => keeps_pure _ le_rfl) fun c => ?_
  -- The closing brace is read by the last round.
  refine (hitem c).bind fun _ _ _ => (keeps_collect fun c => ?_).bind fun _ _ _ => keeps_pure _ le_rfl
  refine Keeps.ifTakesText (Ground.step_unbrace a) (fun _ => keeps_pure _ le_rfl) fun c => ?_
  exact (hitem c).bind fun _ _ _ => keeps_pure _ le_rfl

theorem keeps_initializer : Keeps tokens g a (fun _ => a) (initializer parse) c :=
  Keeps.ifPeek (peeks_seesText _) (fun _ => keeps_arrayInitializer hp hf hb)
    (hp.keeps .expression hf hb)

theorem keeps_arrayCreatorRest : Keeps tokens g a (fun _ => a) (arrayCreatorRest parse) c := by
  refine Keeps.ifPeek (peeks_sees _) (fun _ => ?_) ?_
  · exact keeps_dimensions.bind fun _ _ _ => keeps_arrayInitializer hp hf hb
  refine (Keeps.collect fun _ => ?_).bind fun _ _ _ =>
    keeps_dimensions.bind fun _ _ _ => keeps_pure _ le_rfl
  refine Keeps.ifNotPeek (peeks_seesText _) (keeps_pure _ le_rfl) ?_
  refine Keeps.ifPeek (peeks_sees _) (fun _ => keeps_pure _ le_rfl) ?_
  refine (keeps_symbol (Ground.step_square a)).bind fun _ _ _ => ?_
  refine (keeps_expression_within hp hf hb _).bind fun _ _ _ => ?_
  exact (keeps_symbol (Ground.step_unsquare a)).bind fun _ _ _ => keeps_pure _ le_rfl

omit hb in
theorem keeps_createdSegment : Keeps tokens g a (fun _ => a) (createdSegment parse) c := by
  refine (keeps_identifier hp.proper).bind fun _ _ _ => ?_
  refine Keeps.ifPeek (peeks_seesText _) (fun _ => ?_) (keeps_pure _ le_rfl)
  refine Keeps.ifTakes (.word (by decide) (.word (by decide) .nil))
    (fun _ => keeps_pure _ le_rfl) fun _ => ?_
  exact (keeps_typeArguments hp hf).bind fun _ _ _ => keeps_pure _ le_rfl

theorem keeps_creator : Keeps tokens g a (fun _ => a) (creator parse) c := by
  refine Keeps.ifPeek (peeks_seesClass _) (fun _ => ?_) ?_
  · exact (keeps_basicType hp.proper).bind fun _ _ _ => keeps_arrayCreatorRest hp hf hb
  refine (keeps_plainArguments? hp hf).bind fun generic _ _ => ?_
  refine Keeps.bind (Keeps.separated (by decide) fun _ => keeps_createdSegment hp hf) fun _ _ _ => ?_
  refine Keeps.ifPeek (peeks_seesText _) (fun _ => ?_) ?_
  · exact Keeps.ite (fun _ => keeps_refuse _) (fun _ => keeps_arrayCreatorRest hp hf hb)
  · exact (keeps_arguments hp hf hb).bind fun _ _ _ => keeps_classBody? hp hf hb

theorem keeps_innerCreator : Keeps tokens g a (fun _ => a) (innerCreator parse) c := by
  have hrest : ∀ c, Keeps tokens g a (fun _ => a) (do arguments parse; classBody? parse) c :=
    fun _ => (keeps_arguments hp hf hb).bind fun _ _ _ => keeps_classBody? hp hf hb
  refine (keeps_identifier hp.proper).bind fun _ c _ => ?_
  refine Keeps.ifPeek (peeks_seesText _) (fun _ => ?_) (hrest c)
  refine Keeps.ifTakes (.word (by decide) (.word (by decide) .nil)) hrest fun _ => ?_
  exact (keeps_plainArguments hp hf).bind fun _ c _ => hrest c

/-! ### Operands -/

theorem keeps_identifierSuffix : Keeps tokens g a (fun _ => a) (identifierSuffix parse) c := by
  have hmember : ∀ {word : String}, word ∉ Gauge.fences →
      Walk tokens g [.text ".", .text word] a a :=
    fun hword => .word (by decide) (.word hword .nil)
  refine Keeps.ifTakes walk_dimension (fun _ => ?_) fun _ => ?_
  · refine keeps_dimensions.bind fun _ _ _ => ?_
    exact (keeps_word (by decide)).bind fun _ _ _ => keeps_word (by decide)
  refine Keeps.ifPeek (peeks_seesText _) (fun _ => keeps_arguments hp hf hb) ?_
  refine Keeps.ifTakes (hmember (by decide)) (fun _ => keeps_pure _ le_rfl) fun _ => ?_
  refine Keeps.ifTakes (hmember (by decide)) (fun _ => keeps_pure _ le_rfl) fun _ => ?_
  refine Keeps.ifPeek (peeks_sees _) (fun _ => ?_) ?_
  · refine (keeps_word (by decide)).bind fun _ _ _ => ?_
    exact (keeps_plainArguments hp hf).bind fun _ _ _ => keeps_explicitSuffix hp hf hb
  refine Keeps.ifTakes (hmember (by decide)) (fun _ => ?_) fun _ => ?_
  · exact (keeps_plainArguments? hp hf).bind fun _ _ _ => keeps_innerCreator hp hf hb
  refine Keeps.ifPeek (peeks_sees _) (fun _ => ?_) (keeps_pure _ le_rfl)
  refine (keeps_word (by decide)).bind fun _ _ _ => ?_
  exact (keeps_word (by decide)).bind fun _ _ _ => keeps_arguments hp hf hb

theorem keeps_selector : Keeps tokens g a (fun _ => a) (selector parse) c := by
  refine Keeps.ifTakesText (Ground.step_square a) (fun _ => ?_) fun _ => ?_
  · refine (keeps_expression_within hp hf hb _).bind fun _ _ _ => ?_
    exact keeps_symbol (Ground.step_unsquare a)
  refine Keeps.ifTakesWord (by decide) (fun _ => ?_) (fun _ => keeps_refuse _)
  refine Keeps.ifPeek (peeks_seesClass _) (fun _ => ?_) ?_
  · exact (keeps_identifier hp.proper).bind fun _ _ _ => keeps_arguments? hp hf hb
  refine Keeps.ifPeek (peeks_sees _) (fun _ => keeps_word (by decide)) ?_
  refine Keeps.ifPeek (peeks_seesText _) (fun _ => ?_) ?_
  · exact (keeps_plainArguments hp hf).bind fun _ _ _ => keeps_explicitSuffix hp hf hb
  refine Keeps.ifTakesWord (by decide) (fun _ => keeps_pure _ le_rfl) fun _ => ?_
  refine Keeps.ifTakesWord (by decide) (fun _ => keeps_superSuffix hp hf hb) fun _ => ?_
  refine Keeps.ifTakesWord (by decide) (fun _ => ?_) (fun _ => keeps_refuse _)
  exact (keeps_plainArguments? hp hf).bind fun _ _ _ => keeps_innerCreator hp hf hb

theorem keeps_primary : Keeps tokens g a (fun _ => a) (primary parse) c := by
  refine Keeps.peek (peeks_look 0) fun token hlook => Keeps.ite (fun hliteral => ?_) fun _ => ?_
  · exact (keeps_literal hp.proper hlook hliteral).bind fun _ _ _ => keeps_pure _ le_rfl
  refine Keeps.ifPeek (peeks_seesText _) (fun _ => keeps_parenthesized hp hf hb) ?_
  refine Keeps.ifTakesWord (by decide) (fun _ => keeps_arguments? hp hf hb) fun _ => ?_
  refine Keeps.ifPeek (peeks_sees _) (fun _ => keeps_word (by decide)) ?_
  refine Keeps.ifTakesWord (by decide) (fun _ => keeps_superSuffix hp hf hb) fun _ => ?_
  refine Keeps.ifTakesWord (by decide) (fun _ => keeps_creator hp hf hb) fun _ => ?_
  refine Keeps.ifPeek (peeks_seesText _) (fun _ => ?_) ?_
  · refine (keeps_plainArguments hp hf).bind fun _ _ _ => ?_
    exact Keeps.ifTakesWord (by decide) (fun _ => keeps_arguments hp hf hb)
      (fun _ => keeps_explicitSuffix hp hf hb)
  refine Keeps.ifPeek (peeks_seesClass _) (fun _ => ?_) ?_
  · refine (keeps_identifier hp.proper).bind fun _ _ _ => ?_
    refine (Keeps.collect fun _ => ?_).bind fun _ _ _ => keeps_identifierSuffix hp hf hb
    refine Keeps.ifPeek (peeks_sees _) (fun _ => ?_) (keeps_pure _ le_rfl)
    refine (keeps_word (by decide)).bind fun _ _ _ => ?_
    exact (keeps_identifier hp.proper).bind fun _ _ _ => keeps_pure _ le_rfl
  refine Keeps.ifPeek (peeks_seesClass _) (fun _ => ?_) ?_
  · refine (keeps_basicType hp.proper).bind fun _ _ _ => keeps_dimensions.bind fun _ _ _ => ?_
    exact (keeps_word (by decide)).bind fun _ _ _ => keeps_word (by decide)
  refine Keeps.ifTakesWord (by decide) (fun _ => ?_) (fun _ => keeps_refuse _)
  exact (keeps_word (by decide)).bind fun _ _ _ => keeps_word (by decide)

/-! ### Lambdas, casts and operations -/

theorem keeps_lambdaBody : Keeps tokens g a (fun _ => a) (lambdaBody parse) c := by
  refine (keeps_word (by decide)).bind fun _ _ _ => ?_
  exact Keeps.ifPeek (peeks_seesText _) (fun _ => hp.keeps .block hf hb)
    (hp.keeps .expression hf hb)

theorem keeps_lambda : Keeps tokens g a (fun _ => a) (lambda parse) c := by
  refine Keeps.ifPeek (peeks_sees _) (fun _ => ?_) ?_
  · refine (keeps_symbol (Ground.step_round a)).bind fun _ _ _ => ?_
    refine Keeps.bind (Keeps.upTo fun _ => ?_) fun _ _ _ => ?_
    · refine (keeps_identifier hp.proper).bind fun _ _ _ => ?_
      exact (keeps_takesWord (by decide)).bind fun _ _ _ => keeps_pure _ le_rfl
    · exact (keeps_symbol (Ground.step_unround a)).bind fun _ _ _ => keeps_lambdaBody hp hf hb
  · exact (keeps_parameters hp hf).bind fun _ _ _ => keeps_lambdaBody hp hf hb

theorem keeps_cast : Keeps tokens g a (fun _ => a) (cast parse) c := by
  refine (keeps_symbol (Ground.step_round a)).bind fun _ _ _ => ?_
  refine (keeps_type hp (hf.trans (Nat.le_add_right _ _))).bind fun _ _ _ => ?_
  exact (keeps_symbol (Ground.step_unround a)).bind fun _ _ _ => hp.keeps .operand hf hb

theorem keeps_selection : Keeps tokens g a (fun _ => a) (selection parse) c := by
  refine (keeps_primary hp hf hb).bind fun _ _ _ => ?_
  refine (Keeps.collect fun _ => ?_).bind fun _ _ _ => keeps_skipAny (by decide)
  refine keeps_seesSelector.bind fun selects _ _ => ?_
  split
  · exact (keeps_selector hp hf hb).bind fun _ _ _ => keeps_pure _ le_rfl
  · exact keeps_pure _ le_rfl

theorem keeps_operand : Keeps tokens g a (fun _ => a) (operand parse) c := by
  refine (keeps_skipAny (by decide)).bind fun _ c _ => Keeps.of_above fun habove => ?_
  refine Keeps.ifPeek (peeks_seesText _) (fun hround => ?_) (keeps_selection hp hf hb)
  have hres := resumable_of_seesText_round hp.proper hround
  have hlambda : Keeps tokens { g with floor := a } a (fun _ => a) (lambda parse)
      ⟨c.next, c.next⟩ := keeps_lambda hp le_rfl hb
  refine (hlambda.attempt hf hres).bind fun found c₁ hfound => ?_
  cases found with
  | some _ => exact keeps_pure _ le_rfl
  | none =>
    have hres₁ := resumable_of_attempt_none hlambda habove hres hfound
    have hcast : Keeps tokens { g with floor := a } a (fun _ => a) (cast parse)
        ⟨c₁.next, c₁.next⟩ := keeps_cast hp le_rfl hb
    refine (hcast.attempt hf hres₁).bind fun found _ _ => ?_
    cases found with
    | some _ => exact keeps_pure _ le_rfl
    | none => exact keeps_selection hp hf hb

theorem keeps_operation : Keeps tokens g a (fun _ => a) (operation parse) c := by
  refine (hp.keeps .operand hf hb).bind fun _ _ _ => ?_
  refine (Keeps.collect fun _ => ?_).bind fun _ _ _ => keeps_pure _ le_rfl
  refine Keeps.ifTakesWord (by decide) (fun _ => ?_) fun _ => ?_
  · exact (keeps_type hp hf).bind fun _ _ _ => keeps_pure _ le_rfl
  refine Keeps.ifPeek (peeks_seesAny _) (fun hseen => ?_) (keeps_pure _ le_rfl)
  refine (keeps_infixOperator hseen).bind fun _ _ _ => ?_
  exact (hp.keeps .operand hf hb).bind fun _ _ _ => keeps_pure _ le_rfl

theorem keeps_conditional : Keeps tokens g a (fun _ => a) (conditional parse) c := by
  have hexpression : ∀ {c : Cursor}, Keeps tokens g a (fun _ => a) (parse .expression) c :=
    hp.keeps .expression hf hb
  refine (keeps_operation hp hf hb).bind fun _ _ _ => ?_
  refine Keeps.ifTakesWord (by decide) (fun _ => ?_) fun _ => ?_
  · refine hexpression.bind fun _ _ _ => ?_
    exact (keeps_word (by decide)).bind fun _ _ _ => hp.keeps .conditional hf hb
  refine Keeps.ifPeek (peeks_seesText _) (fun _ => keeps_lambdaBody hp hf hb) ?_
  refine Keeps.ifTakesWord (by decide) (fun _ => ?_) (fun _ => keeps_pure _ le_rfl)
  refine (keeps_plainArguments? hp hf).bind fun _ _ _ => ?_
  exact Keeps.ifTakesWord (by decide) (fun _ => keeps_pure _ le_rfl) (fun _ => hexpression)

theorem keeps_expression : Keeps tokens g a (fun _ => a) (expression parse) c := by
  refine (hp.keeps .conditional hf hb).bind fun _ _ _ => ?_
  refine Keeps.ifPeek (peeks_seesAny _) (fun hseen => ?_) (keeps_pure _ le_rfl)
  exact (keeps_advance_of_seesAny (by decide) hseen).bind fun _ _ _ => hp.keeps .expression hf hb

end

end SourceDoc.Grammar
