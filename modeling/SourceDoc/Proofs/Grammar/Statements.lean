import SourceDoc.Grammar.Statements
import SourceDoc.Proofs.Grammar.Expressions

/-!
# What the grammar of statements keeps

A statement may contain semicolons outside braces, so it has to begin as high as semicolons demand.
Two kinds of attempts begin here: the variables of a loop, behind a parenthesis, and those of a block,
where a look ahead has found a name behind modifiers (`misfit_of_lead`).
-/

namespace SourceDoc.Grammar

open SourceDoc.Grammar.Parser SourceDoc.Token

variable {tokens : Array Token} {g : Ground} {a : Nat} {parse : Descend} {c : Cursor}

/-! ### Variables -/

section
variable (hp : Kept tokens parse) (hf : g.floor ≤ a) (hb : g.gauge.brace ≤ a)
include hp hf hb

theorem keeps_declaratorRest : Keeps tokens g a (fun _ => a) (declaratorRest parse) c := by
  refine keeps_dimensions.bind fun _ _ _ => ?_
  refine Keeps.ifTakesWord (by decide) (fun _ => ?_) (fun _ => keeps_pure _ le_rfl)
  exact (hp.keeps .initializer hf hb).measured.bind fun _ _ _ => keeps_pure _ le_rfl

theorem keeps_declarator : Keeps tokens g a (fun _ => a) (declarator parse) c := by
  refine (keeps_identifier hp.proper).bind fun _ _ _ => ?_
  exact (keeps_declaratorRest hp hf hb).bind fun _ _ _ => keeps_pure _ le_rfl

theorem keeps_expressionUnless (closer : String) :
    Keeps tokens g a (fun _ => a) (expressionUnless parse closer) c :=
  Keeps.ifPeek (peeks_seesText _) (fun _ => keeps_pure _ le_rfl) (hp.keeps .expression hf hb)

theorem keeps_expressionsUnless (closer : String) :
    Keeps tokens g a (fun _ => a) (expressionsUnless parse closer) c := by
  refine Keeps.ifPeek (peeks_seesText _) (fun _ => keeps_pure _ le_rfl) ?_
  refine Keeps.bind (Keeps.separated (by decide) fun _ => ?_) fun _ _ _ => keeps_pure _ le_rfl
  exact hp.keeps .expression hf hb

end

/-! ### Looking ahead -/

theorem stays_behindName (rounds ahead : Nat) : Stays (behindName rounds ahead) := by
  induction rounds generalizing ahead with
  | zero => exact fun _ _ => .inr ⟨_, rfl⟩
  | succ rounds ih =>
    refine (peeks_look ahead).stays.bind fun token => ?_
    split
    · exact ih _
    · exact (peeks_pure _).stays

theorem stays_behindParentheses (rounds depth ahead : Nat) :
    Stays (behindParentheses rounds depth ahead) := by
  induction rounds generalizing depth ahead with
  | zero => exact fun _ _ => .inr ⟨_, rfl⟩
  | succ rounds ih =>
    rw [behindParentheses]
    split
    · exact (peeks_pure _).stays
    · refine (peeks_look ahead).stays.bind fun token => ?_
      split
      · exact ih _ _
      · split
        · exact ih _ _
        · exact ih _ _

theorem stays_leadFrom (bound rounds ahead : Nat) (annotated : Bool) :
    Stays (leadFrom bound rounds ahead annotated) := by
  induction rounds generalizing ahead annotated with
  | zero => exact fun _ _ => .inr ⟨_, rfl⟩
  | succ rounds ih =>
    rw [leadFrom]
    refine (peeks_look ahead).stays.bind fun token => ?_
    split
    · split
      · exact ih _ _
      · exact (peeks_pure _).stays
    · refine (peeks_seesAnnotationAt ahead).stays.bind fun sees => ?_
      split
      · refine (stays_behindName _ _).bind fun behind => ?_
        refine (peeks_look behind).stays.bind fun token => ?_
        split
        · exact (stays_behindParentheses _ _ _).bind fun _ => ih _ _
        · exact ih _ _
      · exact (peeks_pure _).stays

theorem stays_lead : Stays lead :=
  fun tokens c => stays_leadFrom (tokens.size + 2) (tokens.size + 2) 0 false tokens c

/-- Behind an annotation everything counts as annotated. -/
theorem annotated_of_leadFrom {bound rounds ahead : Nat} {token : Option Token} {annotated : Bool}
    {c' : Cursor} (h : leadFrom bound rounds ahead true tokens c = .done (.token token annotated) c') :
    annotated = true := by
  induction rounds generalizing ahead c with
  | zero => cases h
  | succ rounds ih =>
    rw [leadFrom] at h
    obtain ⟨seen, c₁, -, h⟩ := bind_eq_done h
    split at h
    · split at h
      · exact ih h
      · cases h
    · obtain ⟨sees, c₂, -, h⟩ := bind_eq_done h
      split at h
      · obtain ⟨behind, c₃, -, h⟩ := bind_eq_done h
        obtain ⟨seen', c₄, -, h⟩ := bind_eq_done h
        split at h
        · obtain ⟨ahead', c₅, -, h⟩ := bind_eq_done h
          exact ih h
        · exact ih h
      · cases h
        rfl

/-- What stands before a token that was found without annotations is modifiers. -/
theorem modifiers_of_leadFrom {bound rounds ahead : Nat} {token : Option Token} {c' : Cursor}
    (h : leadFrom bound rounds ahead false tokens c = .done (.token token false) c') :
    ∃ k, ahead ≤ k ∧ tokens[c.next + k]? = token ∧
      ∀ j, ahead ≤ j → j < k → ∃ u, tokens[c.next + j]? = some u ∧ u.cls = .modifier := by
  induction rounds generalizing ahead with
  | zero => cases h
  | succ rounds ih =>
    rw [leadFrom] at h
    obtain ⟨seen, c₁, hlook, h⟩ := bind_eq_done h
    obtain ⟨hseen, rfl⟩ := Reply.done.inj hlook
    split at h
    · rename_i hmodifier
      split at h
      · obtain ⟨k, hk, htoken, hbefore⟩ := ih h
        refine ⟨k, by omega, htoken, fun j hlo hhi => ?_⟩
        rcases Nat.eq_or_lt_of_le hlo with rfl | hlo
        · obtain ⟨u, hu, hcls⟩ := (Option.any_eq_true _ _).1 hmodifier
          exact ⟨u, hseen.trans hu, beq_iff_eq.1 hcls⟩
        · exact hbefore j hlo hhi
      · cases h
    · obtain ⟨sees, c₂, hsees, h⟩ := bind_eq_done h
      split at h
      · -- Behind an annotation the answer would be another.
        obtain ⟨behind, c₃, -, h⟩ := bind_eq_done h
        obtain ⟨seen', c₄, -, h⟩ := bind_eq_done h
        split at h
        · obtain ⟨ahead', c₅, -, h⟩ := bind_eq_done h
          cases annotated_of_leadFrom h
        · cases annotated_of_leadFrom h
      · obtain ⟨htoken, -⟩ := Lead.token.inj (Reply.done.inj h).1
        exact ⟨ahead, le_rfl, hseen.trans htoken, fun j hlo hhi => by omega⟩

/-- **No declaration of a unit begins where a look ahead finds a name behind modifiers.** -/
theorem misfit_of_lead (hproper : ∀ t ∈ tokens, Proper t) {t : Token} {c' : Cursor}
    (h : lead tokens c = .done (.token (some t) false) c') (hcls : t.cls = .identifier) :
    Misfit tokens c.next := by
  obtain ⟨k, -, ht, hbefore⟩ := modifiers_of_leadFrom h
  have ht' := hproper t (Array.mem_of_getElem? ht)
  refine ⟨c.next + k, t, Nat.le_add_right _ _, fun j hlo hhi => ?_, ht, ?_, ?_, fun hvalue => ?_⟩
  · obtain ⟨n, rfl⟩ := Nat.exists_eq_add_of_le hlo
    exact hbefore n (Nat.zero_le _) (by omega)
  · rw [hcls]; decide
  · rw [hcls]; decide
  · -- The words of the language are no names, and a semicolon is a separator.
    have hword := ht'.word (by rw [hcls]; decide)
    rw [hcls] at hword
    simp only [List.mem_cons, List.not_mem_nil, or_false] at hvalue
    rcases hvalue with hvalue | hvalue | hvalue | hvalue | hvalue
    · rw [hvalue] at hword; cases hword
    · rw [hvalue] at hword; cases hword
    · rw [hvalue] at hword; cases hword
    · rw [hvalue] at hword; cases hword
    · have := ht'.mark (by rw [hvalue]; decide)
      rw [hcls] at this
      cases this

/-! ### Statements -/

section
variable (hp : Kept tokens parse) (hf : g.floor ≤ a) (hb : g.gauge.brace ≤ a)
  (hs : g.gauge.semicolon ≤ a)
include hp hf hb hs

theorem keeps_localVariables : Keeps tokens g a (fun _ => a) (localVariables parse) c := by
  refine (keeps_variableFront hp hf).bind fun _ _ _ => ?_
  refine (keeps_type hp hf).bind fun _ _ _ => ?_
  refine Keeps.bind (Keeps.separated (by decide) fun _ => keeps_declarator hp hf hb) fun _ _ _ => ?_
  exact keeps_symbol (Ground.step_semicolon hs)

theorem keeps_loopTail : Keeps tokens g a (fun _ => a) (loopTail parse) c := by
  refine (keeps_symbol (Ground.step_semicolon hs)).bind fun _ _ _ => ?_
  refine (keeps_expressionUnless hp hf hb _).bind fun _ _ _ => ?_
  refine (keeps_symbol (Ground.step_semicolon hs)).bind fun _ _ _ => ?_
  exact keeps_expressionsUnless hp hf hb _

theorem keeps_loopVariables : Keeps tokens g a (fun _ => a) (loopVariables parse) c := by
  have hrest : ∀ {c : Cursor}, Keeps tokens g a (fun _ => a) (do
      let _ ← collect do
        if ← takesText "," then return some (← declarator parse) else return none
      loopTail parse) c := by
    refine (Keeps.collect fun _ => ?_).bind fun _ _ _ => keeps_loopTail hp hf hb hs
    exact Keeps.ifTakesWord (by decide)
      (fun _ => (keeps_declarator hp hf hb).bind fun _ _ _ => keeps_pure _ le_rfl)
      (fun _ => keeps_pure _ le_rfl)
  refine (keeps_variableFront hp hf).bind fun _ _ _ => ?_
  refine (keeps_type hp hf).bind fun _ _ _ => ?_
  refine (keeps_identifier hp.proper).bind fun _ _ _ => keeps_dimensions.bind fun _ _ _ => ?_
  refine Keeps.ifTakesWord (by decide) (fun _ => hp.keeps .expression hf hb) fun _ => ?_
  refine Keeps.ifPeek (peeks_seesText _) (fun _ => keeps_loopTail hp hf hb hs) ?_
  refine Keeps.ifTakesWord (by decide) (fun _ => ?_) (fun _ => hrest)
  exact (hp.keeps .initializer hf hb).bind fun _ _ _ => hrest

/-- The control of a loop, which stands behind a parenthesis. -/
theorem keeps_loopControl (hsettled : Settled tokens c.next) :
    Keeps tokens g a (fun _ => a) (loopControl parse) c := by
  have hvariables : Keeps tokens { g with floor := a } a (fun _ => a) (loopVariables parse)
      ⟨c.next, c.next⟩ := keeps_loopVariables hp le_rfl hb hs
  refine (hvariables.attempt hf (.inl hsettled)).bind fun found _ _ => ?_
  split
  · exact keeps_pure _ le_rfl
  · exact (keeps_expressionsUnless hp hf hb _).bind fun _ _ _ => keeps_loopTail hp hf hb hs

omit hs in
theorem keeps_switchLabel {c' : Cursor}
    (h : seesAny ["case", "default"] tokens c = .done true c') :
    Keeps tokens g a (fun _ => a) (switchLabel parse) c := by
  refine (keeps_advance_of_seesAny (by decide) h).bind fun word _ _ => ?_
  split
  · refine Keeps.ifPeek (peeks_sees _) (fun _ => ?_) ?_
    · exact (keeps_identifier hp.proper).bind fun _ _ _ => keeps_word (by decide)
    · exact (hp.keeps .expression hf hb).bind fun _ _ _ => keeps_word (by decide)
  · exact keeps_word (by decide)

theorem keeps_switchGroup {c' : Cursor}
    (h : seesAny ["case", "default"] tokens c = .done true c') :
    Keeps tokens g a (fun _ => a) (switchGroup parse) c := by
  refine (keeps_switchLabel hp hf hb h).bind fun _ _ _ => ?_
  refine (Keeps.collect fun _ => ?_).bind fun _ _ _ => ?_
  · refine Keeps.ifPeek (peeks_seesAny _) (fun h => ?_) (keeps_pure _ le_rfl)
    exact (keeps_switchLabel hp hf hb h).bind fun _ _ _ => keeps_pure _ le_rfl
  · refine (Keeps.collect fun _ => ?_).bind fun _ _ _ => keeps_pure _ le_rfl
    refine Keeps.ifPeek (peeks_seesAny _) (fun _ => keeps_pure _ le_rfl) ?_
    exact (hp.keeps .blockStatement hf (Nat.max_le.2 ⟨hb, hs⟩)).bind
      fun _ _ _ => keeps_pure _ le_rfl

theorem keeps_switchGroups : Keeps tokens g a (fun _ => a) (switchGroups parse) c := by
  refine (Keeps.collect fun _ => ?_).bind fun _ _ _ => keeps_pure _ le_rfl
  refine Keeps.ifPeek (peeks_seesAny _) (fun h => ?_) (keeps_pure _ le_rfl)
  exact (keeps_switchGroup hp hf hb hs h).bind fun _ _ _ => keeps_pure _ le_rfl

omit hs in
theorem keeps_handler : Keeps tokens g a (fun _ => a) (handler parse) c := by
  refine (keeps_word (by decide)).bind fun _ _ _ => ?_
  refine (keeps_symbol (Ground.step_round a)).bind fun _ _ _ => ?_
  refine (keeps_variableFront hp (hf.trans (Nat.le_add_right _ _))).bind fun _ _ _ => ?_
  refine Keeps.bind (Keeps.separated (by decide) fun _ => keeps_qualifiedName hp.proper)
    fun _ _ _ => ?_
  refine (keeps_identifier hp.proper).bind fun _ _ _ => ?_
  exact (keeps_symbol (Ground.step_unround a)).bind fun _ _ _ => hp.keeps .block hf hb

omit hs in
theorem keeps_handlers : Keeps tokens g a (fun _ => a) (handlers parse) c := by
  refine (Keeps.collect fun _ => ?_).bind fun _ _ _ => ?_
  · refine Keeps.ifPeek (peeks_seesText _) (fun _ => ?_) (keeps_pure _ le_rfl)
    exact (keeps_handler hp hf hb).bind fun _ _ _ => keeps_pure _ le_rfl
  · refine Keeps.ifTakesWord (by decide) (fun _ => ?_) (fun _ => keeps_pure _ le_rfl)
    exact (hp.keeps .block hf hb).bind fun _ _ _ => keeps_pure _ le_rfl

omit hs in
theorem keeps_resource : Keeps tokens g a (fun _ => a) (resource parse) c := by
  refine (keeps_variableFront hp hf).bind fun _ _ _ => ?_
  refine (hp.keeps .reference hf (Nat.zero_le _)).bind fun _ _ _ => ?_
  refine keeps_dimensions.bind fun _ _ _ => ?_
  refine (keeps_identifier hp.proper).bind fun _ _ _ => keeps_dimensions.bind fun _ _ _ => ?_
  exact (keeps_word (by decide)).bind fun _ _ _ => hp.keeps .expression hf hb

theorem keeps_resources : Keeps tokens g a (fun _ => a) (resources parse) c := by
  have hitem : ∀ c, Keeps tokens g (a + g.gauge.round) (fun _ => a + g.gauge.round)
      (do resource parse; unless ← seesText ")" do symbol ";") c := fun c =>
    (keeps_resource hp (hf.trans (Nat.le_add_right _ _))
      (hb.trans (Nat.le_add_right _ _))).bind fun _ _ _ =>
      Keeps.ifPeek (peeks_seesText _) (fun _ => keeps_pure _ le_rfl)
        (keeps_symbol (Ground.step_semicolon (hs.trans (Nat.le_add_right _ _))))
  -- The closing parenthesis is read by the last round.
  refine (keeps_symbol (Ground.step_round a)).bind fun _ c _ => (hitem c).bind fun _ _ _ => ?_
  refine (keeps_collect fun c => ?_).bind fun _ _ _ => keeps_pure _ le_rfl
  refine Keeps.ifTakesText (Ground.step_unround a) (fun _ => keeps_pure _ le_rfl) fun c => ?_
  exact (hitem c).bind fun _ _ _ => keeps_pure _ le_rfl

theorem keeps_tryRest : Keeps tokens g a (fun _ => a) (tryRest parse) c := by
  have hblock : ∀ {c : Cursor}, Keeps tokens g a (fun _ => a) (parse .block) c :=
    hp.keeps .block hf hb
  refine Keeps.ifPeek (peeks_seesText _) (fun _ => ?_) ?_
  · refine hblock.bind fun _ _ _ => (keeps_handlers hp hf hb).bind fun handled _ _ => ?_
    split
    · exact keeps_pure _ le_rfl
    · exact keeps_refuse _
  · refine (keeps_resources hp hf hb hs).bind fun _ _ _ => hblock.bind fun _ _ _ => ?_
    exact (keeps_handlers hp hf hb).bind fun _ _ _ => keeps_pure _ le_rfl

omit hf hb in
theorem keeps_jumpRest : Keeps tokens g a (fun _ => a) jumpRest c := by
  have hend : ∀ {c : Cursor}, Keeps tokens g a (fun _ => a) (symbol ";") c :=
    keeps_symbol (Ground.step_semicolon hs)
  refine Keeps.ifPeek (peeks_seesClass _) (fun _ => ?_) hend
  exact (keeps_identifier hp.proper).bind fun _ _ _ => hend

omit hs in
theorem keeps_block : Keeps tokens g a (fun _ => a) (block parse) c := by
  have hsemicolon := g.gauge.semicolon_le
  have hneed : Rule.need g.gauge .blockStatement ≤ a + g.gauge.curly :=
    Nat.max_le.2 ⟨by omega, by omega⟩
  refine (keeps_symbol (Ground.step_brace hb)).bind fun _ _ _ => ?_
  refine Keeps.bind (Keeps.upTo fun _ => ?_) fun _ _ _ => keeps_symbol (Ground.step_unbrace a)
  exact hp.keeps .blockStatement (by omega) hneed

theorem keeps_statement : Keeps tokens g a (fun _ => a) (statement parse) c := by
  have hexpression : ∀ {c : Cursor}, Keeps tokens g a (fun _ => a) (parse .expression) c :=
    hp.keeps .expression hf hb
  have hstatement : ∀ {c : Cursor}, Keeps tokens g a (fun _ => a) (parse .statement) c :=
    hp.keeps .statement hf (Nat.max_le.2 ⟨hb, hs⟩)
  have hend : ∀ {c : Cursor}, Keeps tokens g a (fun _ => a) (symbol ";") c :=
    keeps_symbol (Ground.step_semicolon hs)
  refine Keeps.ifPeek (peeks_seesText _) (fun _ => hp.keeps .block hf hb) ?_
  refine Keeps.ifTakesText (Ground.step_semicolon hs) (fun _ => keeps_pure _ le_rfl) fun _ => ?_
  refine Keeps.ifTakes (.ofClass hp.proper (by decide) (.word (by decide) .nil))
    (fun _ => hstatement) fun _ => ?_
  -- `if`
  refine Keeps.ifTakesWord (by decide) (fun _ => ?_) fun _ => ?_
  · refine (keeps_parenthesized hp hf hb).bind fun _ _ _ => hstatement.bind fun _ _ _ => ?_
    exact Keeps.ifTakesWord (by decide) (fun _ => hstatement) (fun _ => keeps_pure _ le_rfl)
  -- `assert`
  refine Keeps.ifTakesWord (by decide) (fun _ => ?_) fun _ => ?_
  · refine hexpression.bind fun _ _ _ => ?_
    exact Keeps.ifTakesWord (by decide) (fun _ => hexpression.bind fun _ _ _ => hend)
      (fun _ => hend)
  -- `switch`
  refine Keeps.ifTakesWord (by decide) (fun _ => ?_) fun _ => ?_
  · refine (keeps_parenthesized hp hf hb).bind fun _ _ _ => ?_
    refine (keeps_symbol (Ground.step_brace hb)).bind fun _ _ _ => ?_
    refine (keeps_switchGroups hp (hf.trans (Nat.le_add_right _ _))
      (hb.trans (Nat.le_add_right _ _)) (hs.trans (Nat.le_add_right _ _))).bind fun _ _ _ => ?_
    exact keeps_symbol (Ground.step_unbrace a)
  -- `while` and `do`
  refine Keeps.ifTakesWord (by decide) (fun _ => ?_) fun _ => ?_
  · exact (keeps_parenthesized hp hf hb).bind fun _ _ _ => hstatement
  refine Keeps.ifTakesWord (by decide) (fun _ => ?_) fun _ => ?_
  · refine hstatement.bind fun _ _ _ => (keeps_word (by decide)).bind fun _ _ _ => ?_
    exact (keeps_parenthesized hp hf hb).bind fun _ _ _ => hend
  -- `for`
  refine Keeps.ifTakesWord (by decide) (fun _ => ?_) fun _ => ?_
  · refine (keeps_symbol (Ground.step_round a)).bind fun _ c hround => ?_
    refine (keeps_loopControl hp (hf.trans (Nat.le_add_right _ _)) (hb.trans (Nat.le_add_right _ _))
      (hs.trans (Nat.le_add_right _ _)) ?_).bind fun _ _ _ => ?_
    · obtain ⟨hstands, rfl⟩ := symbol_eq_done hround
      exact hstands.settled hp.proper (by decide)
    · exact (keeps_symbol (Ground.step_unround a)).bind fun _ _ _ => hstatement
  -- `break`, `continue`, `return` and `throw`
  refine Keeps.ifTakesWord (by decide) (fun _ => keeps_jumpRest hp hs) fun _ => ?_
  refine Keeps.ifTakesWord (by decide) (fun _ => keeps_jumpRest hp hs) fun _ => ?_
  refine Keeps.ifTakesWord (by decide) (fun _ => ?_) fun _ => ?_
  · exact (keeps_expressionUnless hp hf hb _).bind fun _ _ _ => hend
  refine Keeps.ifTakesWord (by decide) (fun _ => hexpression.bind fun _ _ _ => hend) fun _ => ?_
  -- `synchronized` and `try`
  refine Keeps.ifTakesWord (by decide) (fun _ => ?_) fun _ => ?_
  · exact (keeps_parenthesized hp hf hb).bind fun _ _ _ => hp.keeps .block hf hb
  exact Keeps.ifTakesWord (by decide) (fun _ => keeps_tryRest hp hf hb hs)
    (fun _ => hexpression.bind fun _ _ _ => hend)

theorem keeps_blockStatement : Keeps tokens g a (fun _ => a) (blockStatement parse) c := by
  have hstatement : ∀ {c : Cursor}, Keeps tokens g a (fun _ => a) (parse .statement) c :=
    hp.keeps .statement hf (Nat.max_le.2 ⟨hb, hs⟩)
  have htype : ∀ {c : Cursor}, Keeps tokens g a (fun _ => a) (localType parse) c :=
    (hp.keeps .typeDeclaration hf hb).bind fun _ _ _ => keeps_pure _ le_rfl
  refine Keeps.ifPeek (peeks_sees _) (fun _ => hstatement) ?_
  refine Keeps.ifPeek (peeks_seesText _) (fun _ => hstatement) ?_
  refine (stays_lead.keeps c).bind fun found c' hlead => ?_
  cases found with
  | typeModifier => exact htype
  | token token annotated =>
    dsimp only
    split
    · exact htype
    split
    · exact keeps_localVariables hp hf hb hs
    split
    · exact hstatement
    · -- A name was seen behind modifiers: no declaration begins here, so reading may go back to it.
      rename_i hannotated hidentifier
      have hres : Resumable tokens c'.next := by
        simp only [Bool.or_eq_true, not_or, Bool.not_eq_true] at hannotated
        simp only [Bool.not_eq_true', Bool.not_eq_false] at hidentifier
        obtain ⟨t, rfl, hcls⟩ := (Option.any_eq_true _ _).1 hidentifier
        obtain rfl := hannotated.1
        obtain rfl : c' = c := stays_lead.eq_of_done hlead
        exact .inr (misfit_of_lead hp.proper hlead (beq_iff_eq.1 hcls))
      have hvariables : Keeps tokens { g with floor := a } a (fun _ => a) (localVariables parse)
          ⟨c'.next, c'.next⟩ := keeps_localVariables hp le_rfl hb hs
      refine (hvariables.attempt hf hres).bind fun found _ _ => ?_
      split
      · exact keeps_pure _ le_rfl
      · exact hstatement

end

end SourceDoc.Grammar
