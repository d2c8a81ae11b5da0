import SourceDoc.Proofs.Grammar.TypeParses
import SourceDoc.Proofs.Tree.HeadingTexts

/-!
# Headings are read from their tokens

A member of a class is read from the tokens of a heading and a semicolon, and is the method that the
heading tells of (`accepts_classMember`), so a class with one method is read from a heading in braces
(`exists_parseUnit`).
-/

namespace SourceDoc.Tree

open SourceDoc.Token

/-- The parameter without its annotations. -/
def Parameter.bare (p : Parameter) : Parameter := { p with annotations := [] }

/-- The method of a heading, without a block. -/
def Heading.body (h : Heading) : Body :=
  .method h.result {
    name := h.name
    typeParameters := h.typeParameters
    parameters := h.parameters.map Parameter.bare
    throws := h.thrown.map (".".intercalate ·)
    body := none }

/-- The tokens of a heading and a semicolon, from the parameters on. -/
def Heading.tail (h : Heading) : List Lexeme :=
  (.separator, "(") :: (commaLexemes (h.parameters.map Parameter.lexemes) ++ [(.separator, ")")]) ++
    (throwsLexemes h.thrown ++ [(.separator, ";")])

theorem Heading.lexemes_semicolon (h : Heading) : h.lexemes ++ [(.separator, ";")] =
    h.modifiers.map (fun m => (.modifier, m)) ++ (genericLexemes h.typeParameters ++
      (resultLexemes h.result ++ (.identifier, h.name) :: h.tail)) := by
  rw [Heading.lexemes_eq, Heading.tail]
  simp

end SourceDoc.Tree

namespace SourceDoc.Grammar

open SourceDoc.Tree SourceDoc.Grammar.Parser SourceDoc.Token

variable {after : List Lexeme → Prop} {parse : Descend}

/-! ### What follows -/

/-- The next token, if there is one, is of none of these classes. -/
def NotClass (classes : List TokenClass) (rest : List Lexeme) : Prop :=
  ∀ l ∈ rest.head?, l.1 ∉ classes

theorem notClass_cons {classes : List TokenClass} {l : Lexeme} {rest : List Lexeme}
    (h : l.1 ∉ classes) : NotClass classes (l :: rest) := by
  intro k hk
  obtain rfl : l = k := Option.some.inj hk
  exact h

theorem NotClass.suitsAll {classes : List TokenClass} {rest : List Lexeme} (h : NotClass classes rest)
    {cls : TokenClass} (hcls : cls ∈ classes) (patterns : List Pattern) :
    suitsAll (.ofClass cls :: patterns) rest = false := by
  cases rest with
  | nil => rfl
  | cons l rest =>
    have hne : l.1 ≠ cls := by
      rintro rfl
      exact h l rfl hcls
    simp [Grammar.suitsAll, suits, hne]

/-- The second token does not have a text that none of the first tokens has. -/
theorem suitsAll_second {pattern : Pattern} {text : String} {ls : List Lexeme} {m : Lexeme}
    (hne : ls ≠ []) (hls : ∀ l ∈ ls, l.2 ≠ text) (hm : m.2 ≠ text) (rest : List Lexeme) :
    suitsAll [pattern, .text text] (ls ++ m :: rest) = false := by
  cases ls with
  | nil => exact absurd rfl hne
  | cons l ls =>
    cases ls with
    | nil => simp [suitsAll, suits, hm]
    | cons k ls =>
      have hk := hls k (List.mem_cons_of_mem l List.mem_cons_self)
      simp [suitsAll, suits, hk]

/-- A type comes next: an identifier or the name of a basic type. -/
def TypeNext (rest : List Lexeme) : Prop :=
  ∃ l ls, rest = l :: ls ∧ l.1 ∈ [TokenClass.identifier, .basicType] ∧ IsWordOf l.1 l.2

theorem typeNext_lexemes {t : TypeRef} (h : t.IsWritten) (rest : List Lexeme) :
    TypeNext (t.lexemes ++ rest) := by
  cases t with
  | basic name count =>
    rw [TypeRef.lexemes]
    exact ⟨_, _, rfl, List.mem_cons_of_mem _ List.mem_cons_self, h⟩
  | named segments count =>
    obtain ⟨name, ls, hname, hls⟩ := exists_lexemes_named h.1 h.2
    rw [TypeRef.lexemes, hls]
    exact ⟨_, _, rfl, List.mem_cons_self, hname⟩

theorem TypeNext.notClass {rest : List Lexeme} (h : TypeNext rest) {classes : List TokenClass}
    (hclasses : ∀ cls ∈ classes, cls ∉ [TokenClass.identifier, .basicType]) :
    NotClass classes rest := by
  obtain ⟨l, ls, rfl, hcls, -⟩ := h
  exact notClass_cons fun hmem => hclasses l.1 hmem hcls

/-- A type begins neither with a word of another class nor with a mark. -/
theorem TypeNext.notNext {rest : List Lexeme} (h : TypeNext rest) {texts : List String}
    (htexts : ∀ text ∈ texts, classOfWord text ∉ [TokenClass.identifier, .basicType] ∨
      text.toList.head?.all (!isIdentifierStart ·) = true) : NotNext texts rest := by
  obtain ⟨l, ls, rfl, hcls, hword⟩ := h
  refine notNext_cons fun hmem => ?_
  rcases htexts l.2 hmem with hother | hmark
  · rw [hword.cls_eq] at hother
    exact hother hcls
  · have hnone : NotNext [l.2] (l :: ls) := notNext_of_isWord hword.isWord (by simpa using hmark)
    exact hnone l rfl List.mem_cons_self

/-! ### Names -/

theorem parses_identifier (name : String) :
    Parses identifier [(.identifier, name)] name Anything :=
  parses_expect rfl

theorem parses_qualifiedName {names : List String} (hne : names ≠ []) :
    Parses qualifiedName (wordLexemes "." names) (".".intercalate names) (NotNext ["."]) := by
  have hnames : Parses (separated "." identifier) (wordLexemes "." names) names (NotNext ["."]) :=
    Parses.separated (.separator, ".") hne (fun n _ => parses_identifier n)
      ⟨fun _ => trivial, fun _ _ => trivial⟩ fun _ hrest => hrest.suitsAll List.mem_cons_self []
  exact hnames.yield

theorem parses_throwsClause {thrown : List (List String)} (h : ∀ names ∈ thrown, names ≠ []) :
    Parses throwsClause (throwsLexemes thrown) (thrown.map (".".intercalate ·))
      (NotNext ["throws", ",", "."]) := by
  cases thrown with
  | nil => exact .ifLeaves (fun rest hrest => hrest.suitsAll List.mem_cons_self []) (parses_pure [])
  | cons names thrown =>
    have hlist : Parses (separated "," qualifiedName)
        (commaLexemes ((names :: thrown).map (wordLexemes ".")))
        ((names :: thrown).map (".".intercalate ·)) (NotNext ["throws", ",", "."]) := by
      refine Parses.separatedMap (.separator, ",") (".".intercalate ·) (List.cons_ne_nil _ _)
        (fun n hn => parses_qualifiedName (h n hn)) ⟨fun rest => ?_, fun rest hrest => ?_⟩
        fun rest hrest => hrest.suitsAll (by decide) []
      · exact notNext_cons (by decide)
      · exact hrest.mono (by decide)
    exact .ifTakesText (.keyword, "throws") hlist

theorem parses_methodTail {thrown : List (List String)} (h : ∀ names ∈ thrown, names ≠ []) :
    Parses (methodTail parse) (throwsLexemes thrown ++ [(.separator, ";")])
      (thrown.map (".".intercalate ·), none) Anything := by
  refine (parses_throwsClause h).bind ?_ fun _ _ => notNext_cons (by decide)
  -- no block follows
  exact .ifSees false (fun _ _ => rfl) (Parses.symbol (parses_pure _))

theorem parses_typeParameters {names : List String} (hne : names ≠ []) (depth : Nat) :
    Parses (typeParameters? (parseRule depth)) (genericLexemes names) names Anything := by
  have hname : ∀ n ∈ names,
      Parses (typeParameter (parseRule depth)) [(.identifier, n)] n (NotNext ["extends"]) := by
    intro n _
    have hplain : Parses (do
        if ← takesText "extends" then
          let _ ← separated "&" (parseRule depth .reference)
        return n) [] n (NotNext ["extends"]) :=
      .ifLeaves (fun rest hrest => hrest.suitsAll List.mem_cons_self []) (parses_pure n)
    exact .expect rfl hplain
  have hlisted : Parses (listed ">" (typeParameter (parseRule depth)))
      (wordLexemes "," names ++ [(.operator, ">")]) names Anything := by
    apply Parses.listed (.operator, ">") (by decide) (NotNext ["extends"]) hne hname
    exact fun rest => ⟨notNext_cons (by decide), notNext_cons (by decide)⟩
  rw [genericLexemes, if_neg (by simpa using hne)]
  exact .ifSees true (fun _ _ => rfl) hlisted.symbol

/-- Where a type comes next, no type is declared. -/
theorem parses_noTypeBody : Parses (typeBody? parse) [] none TypeNext := by
  have hwords : ∀ rest, TypeNext rest → NotNext ["class", "enum", "interface"] rest :=
    fun rest hrest => hrest.notNext (by decide)
  refine .ifSees false (fun rest hrest => (hwords rest hrest).suitsAll (by decide) []) ?_
  refine .ifSees false (fun rest hrest => (hwords rest hrest).suitsAll (by decide) []) ?_
  refine .ifSees false (fun rest hrest => (hwords rest hrest).suitsAll (by decide) []) ?_
  refine .ifSees false (fun rest hrest => ?_) (parses_pure none)
  have hsign : NotClass [.atSign] rest := hrest.notClass (by decide)
  exact hsign.suitsAll List.mem_cons_self _

/-! ### Parameters -/

theorem addDimensions_zero (t : TypeRef) : t.addDimensions 0 = t := by
  cases t with
  | basic name count => rw [TypeRef.addDimensions, Nat.add_zero]
  | named segments count => rw [TypeRef.addDimensions, Nat.add_zero]

theorem parses_noAtSign :
    Parses (seesAnnotationAt 0) [] false (NotClass [.atSign]) := by
  intro tokens i mark rest hahead hrest
  have hfits : fitsFrom tokens i [.ofClass .atSign] = false := by
    rw [fitsFrom_eq_suitsAll, hahead]
    exact hrest.suitsAll List.mem_cons_self []
  have hsign : (tokens[i]?.any (·.cls == .atSign)) = false := by
    rw [fitsFrom, fitsFrom, Bool.and_true] at hfits
    cases ht : tokens[i]? with
    | none => rfl
    | some t =>
      rw [ht] at hfits
      exact hfits
  show Reply.done (tokens[i]?.any (·.cls == .atSign) && _) (Cursor.mk i mark) = _
  rw [hsign, Bool.false_and]
  rfl

/-- Where no annotation comes next, the other choice is made. -/
theorem Parses.ifNoAtSign {α : Type} {q r : Parser α} {ls : List Lexeme} {v : α}
    (hsign : ∀ rest, after rest → NotClass [.atSign] (ls ++ rest)) (hrun : Parses r ls v after) :
    Parses (do if ← seesAnnotationAt 0 then q else r) ls v after :=
  parses_noAtSign.bind hrun hsign

theorem parses_variableFront (isFinal : Bool) :
    Parses (variableFront parse) (if isFinal then [(.modifier, "final")] else [])
      (if isFinal then [Mark.modifier "final"] else []) TypeNext := by
  have hnone : Parses (do
      if ← takesText "final" then return some (Mark.modifier "final")
      else if ← seesAnnotationAt 0 then return some (.use (← parse .annotationUse))
      else return none) [] none TypeNext := by
    apply Parses.ifLeaves
    · intro rest hrest
      have hnext : NotNext ["final"] rest := hrest.notNext (by decide)
      exact hnext.suitsAll List.mem_cons_self []
    · exact .ifNoAtSign (fun rest hrest => hrest.notClass (by decide)) (parses_pure none)
  cases isFinal with
  | false => exact hnone.bind (parses_pure []) fun _ hrest => hrest
  | true =>
    have hfinal : ∀ mark ∈ [Mark.modifier "final"], Parses (do
        if ← takesText "final" then return some (Mark.modifier "final")
        else if ← seesAnnotationAt 0 then return some (.use (← parse .annotationUse))
        else return none) [(.modifier, "final")] (some mark) Anything := by
      intro mark hmark
      obtain rfl := List.mem_singleton.1 hmark
      exact .ifTakesText (.modifier, "final") (parses_pure _)
    exact .collect Anything hfinal hnone (fun _ _ => ⟨List.cons_ne_nil _ _, fun _ => trivial⟩)
      fun _ _ => trivial

/-- The parameter that is read from what stands in front of it, its type and its name. -/
theorem bare_eq (p : Parameter) :
    ({ isFinal := !(Mark.words (if p.isFinal then [Mark.modifier "final"] else [])).isEmpty
       annotations := Mark.annotations (if p.isFinal then [Mark.modifier "final"] else [])
       type := p.type.addDimensions 0
       varargs := p.varargs
       name := p.name } : Parameter) = p.bare := by
  obtain ⟨isFinal, annotations, type, varargs, name⟩ := p
  rw [Parameter.bare, addDimensions_zero]
  cases isFinal <;> rfl

/-- A token that may be there is read just if it is. -/
theorem parses_takesText (l : Lexeme) (found : Bool) :
    Parses (takesText l.2) (if found then [l] else []) found fun rest =>
      found = false → NotNext [l.2] rest := by
  cases found with
  | true =>
    intro tokens i mark rest hahead _
    have hsuits : suitsAll [.text l.2] ([l] ++ rest) = true :=
      suitsAll_append (by simp [suitsAll, suits]) rest
    rw [if_pos rfl] at hahead
    rw [takesText, takes_eq, fitsFrom_eq_suitsAll, hahead, if_pos hsuits]
    rfl
  | false =>
    exact (parses_leaves [.text l.2]).mono fun rest hrest =>
      (hrest rfl).suitsAll List.mem_cons_self []

/-- **A parameter is read from its tokens**, without its annotations. -/
theorem parses_parameter {p : Parameter} (h : p.IsWritten) {depth : Nat}
    (hdepth : p.lexemes.length ≤ depth) :
    Parses (parameter (parseRule depth)) p.lexemes p.bare (NotNext ["["]) := by
  have hname : IsWord p.name := h.2.isWord
  rw [Parameter.lexemes] at hdepth ⊢
  have htype : Parses (type (parseRule depth)) p.type.lexemes p.type (NotNext typeGoesOn) := by
    apply parses_type h.1
    rw [List.length_append, List.length_append] at hdepth
    omega
  refine (parses_variableFront p.isFinal).bind ?_ fun rest _ => ?_
  · refine htype.bind ?_ fun rest _ => ?_
    · refine (parses_takesText (.operator, "...") p.varargs).bind ?_ fun rest _ _ => ?_
      · rw [← bare_eq]
        exact (parses_identifier p.name).bind (parses_dimensions 0).yield fun _ _ => trivial
      · exact notNext_of_isWord hname (by decide)
    · -- behind the type comes the mark or the name
      cases p.varargs with
      | true => exact notNext_cons (by decide)
      | false => exact notNext_of_isWord hname (by decide)
  · rw [List.append_assoc]
    exact typeNext_lexemes h.1 _

/-- A parameter begins with a word. -/
theorem notNext_parameter {p : Parameter} (h : p.IsWritten) {texts : List String}
    (htexts : ∀ text ∈ texts, text.toList.head?.all (!isIdentifierStart ·) = true)
    (rest : List Lexeme) : NotNext texts (p.lexemes ++ rest) := by
  rw [Parameter.lexemes]
  cases p.isFinal with
  | true => exact notNext_of_isWord isWordOf_final.isWord htexts
  | false =>
    obtain ⟨l, ls, hls, hword⟩ := exists_lexemes_cons h.1
    rw [hls]
    exact notNext_of_isWord hword htexts

/-- **Parameters are read from their tokens.**  A parameter that takes any number of arguments is the
last, so that nothing is looked for behind it. -/
theorem parses_parameters {ps : List Parameter} (h : ∀ p ∈ ps, p.IsWritten)
    (hvarargs : ps.IsChain fun p _ => p.varargs = false) {depth : Nat}
    (hdepth : ∀ p ∈ ps, p.lexemes.length ≤ depth) :
    Parses (parameters (parseRule depth))
      ((.separator, "(") :: (commaLexemes (ps.map Parameter.lexemes) ++ [(.separator, ")")]))
      (ps.map Parameter.bare) after := by
  apply Parses.symbol
  cases ps with
  | nil => exact .ifTakesText (.separator, ")") (parses_pure [])
  | cons first others =>
    have hitem : ∀ p ∈ first :: others,
        Parses (parameter (parseRule depth)) p.lexemes p.bare (NotNext ["["]) :=
      fun p hp => parses_parameter (h p hp) (hdepth p hp)
    have hnext : ∀ p ∈ first :: others, Parses (do
        if ← takesText "," then return some (← parameter (parseRule depth)) else return none)
        ((.separator, ",") :: p.lexemes) (some p.bare) (NotNext ["["]) :=
      fun p hp => .ifTakesText (.separator, ",") (hitem p hp).yield
    have hnone : Parses (do
        if ← takesText "," then return some (← parameter (parseRule depth)) else return none)
        [] none (NotNext [",", "["]) :=
      .ifLeaves (fun rest hrest => hrest.suitsAll List.mem_cons_self []) (parses_pure none)
    have hall : Parses (chain (fun last => do
        if last.varargs then return none
        if ← takesText "," then return some (← parameter (parseRule depth)) else return none)
        first.bare)
        (others.flatMap (fun p => (.separator, ",") :: p.lexemes) ++ [])
        ((first :: others).map Parameter.bare) (NotNext [",", "["]) := by
      refine .chainMap Parameter.bare (NotNext ["["]) ?_ (fun v _ => ?_)
        (fun p _ => ⟨List.cons_ne_nil _ _, fun _ => notNext_cons (by decide)⟩)
        fun rest hrest => hrest.mono (by decide)
      · -- a parameter with another one behind it takes one argument, so the comma is looked for
        refine hvarargs.imp_of_mem_imp fun p q _ hq hp => ?_
        rw [show p.bare.varargs = false from hp]
        exact hnext q hq
      · cases v.bare.varargs with
        | true => exact parses_pure none
        | false => exact hnone
    rw [List.append_nil] at hall
    rw [commaLexemes, intercalate_singleton_eq, List.append_assoc]
    apply Parses.ifLeaves
    · intro rest _
      rw [List.append_assoc]
      have hopen := notNext_parameter (h first List.mem_cons_self)
        (show ∀ text ∈ [")"], text.toList.head?.all (!isIdentifierStart ·) = true by decide)
      exact (hopen _).suitsAll List.mem_cons_self []
    · refine (hitem first List.mem_cons_self).bind (hall.bind (.symbol (parses_pure _)) ?_) ?_
      · exact fun rest _ => notNext_cons (by decide)
      · intro rest _
        cases others with
        | nil => exact notNext_cons (by decide)
        | cons p others => exact notNext_cons (by decide)

/-! ### Methods -/

section
variable {h : Heading} (hh : h.IsWritten) {depth : Nat} (hdepth : h.lexemes.length ≤ depth)
include hh hdepth

theorem parses_headingParameters :
    Parses (parameters (parseRule depth))
      ((.separator, "(") ::
        (commaLexemes (h.parameters.map Parameter.lexemes) ++ [(.separator, ")")]))
      (h.parameters.map Parameter.bare) Anything := by
  apply parses_parameters hh.parameters hh.varargs
  intro p hp
  have hle := length_le_length_intercalate (.separator, ",")
    (List.mem_map_of_mem (f := Parameter.lexemes) hp)
  rw [Heading.lexemes_eq] at hdepth
  simp only [List.length_append, List.length_cons] at hdepth
  change _ ≤ (commaLexemes (h.parameters.map Parameter.lexemes)).length at hle
  omega

omit hdepth in
theorem parses_headingTail (parse : Descend) :
    Parses (methodTail parse) (throwsLexemes h.thrown ++ [(.separator, ";")])
      (h.thrown.map (".".intercalate ·), none) Anything :=
  parses_methodTail fun names hnames => (hh.thrown names hnames).1

theorem parses_voidMethod (hresult : h.result = none) :
    Parses (voidMethod (parseRule depth) h.typeParameters) ((.identifier, h.name) :: h.tail) h.body
      Anything := by
  have htail := parses_headingTail hh (parseRule depth)
  rw [Heading.body, hresult, Heading.tail]
  refine (parses_identifier h.name).bind ?_ fun _ _ => trivial
  exact (parses_headingParameters hh hdepth).bind htail.yield fun _ _ => trivial

theorem parses_methodRest {t : TypeRef} (hresult : h.result = some t) :
    Parses (methodRest (parseRule depth) t h.name h.typeParameters) h.tail h.body Anything := by
  have htail := parses_headingTail hh (parseRule depth)
  have hbehind : ∀ rest, NotNext ["["] (throwsLexemes h.thrown ++ [(.separator, ";")] ++ rest) := by
    intro rest
    rw [throwsLexemes]
    split
    · exact notNext_cons (by decide)
    · exact notNext_cons (by decide)
  rw [Heading.body, hresult, Heading.tail]
  refine (parses_headingParameters hh hdepth).bind ?_ fun _ _ => trivial
  refine (parses_dimensions 0).bind ?_ fun rest _ => hbehind rest
  rw [addDimensions_zero]
  exact htail.yield

/-- The type of a result is read from its tokens. -/
theorem parses_resultType {t : TypeRef} (hresult : h.result = some t) :
    Parses (type (parseRule depth)) t.lexemes t (NotNext typeGoesOn) := by
  apply parses_type (hh.result t hresult)
  rw [Heading.lexemes_eq, hresult] at hdepth
  simp only [List.length_append, resultLexemes] at hdepth
  omega

/-- A method with a result, from its result on. -/
theorem parses_methodWithResult {t : TypeRef} (hresult : h.result = some t) :
    Parses (do
      let result ← type (parseRule depth)
      let name ← identifier
      methodRest (parseRule depth) result name h.typeParameters)
      (t.lexemes ++ (.identifier, h.name) :: h.tail) h.body Anything := by
  have hname : Parses (do
      let name ← identifier
      methodRest (parseRule depth) t name h.typeParameters) ((.identifier, h.name) :: h.tail) h.body
      Anything :=
    (parses_identifier h.name).bind (parses_methodRest hh hdepth hresult) fun _ _ => trivial
  exact (parses_resultType hh hdepth hresult).bind hname fun _ _ =>
    notNext_of_isWord hh.name.isWord (by decide)

omit hdepth in
theorem resultLexemes_ne_nil : resultLexemes h.result ≠ [] := by
  cases hresult : h.result with
  | none => exact List.cons_ne_nil _ _
  | some t =>
    obtain ⟨l, ls, hls, -⟩ := exists_lexemes_cons (hh.result t hresult)
    rw [resultLexemes, hls]
    exact List.cons_ne_nil l ls

omit hdepth in
/-- A result and a name do not look like a constructor. -/
theorem suitsAll_result (pattern : Pattern) (rest : List Lexeme) :
    suitsAll [pattern, .text "("] (resultLexemes h.result ++ (.identifier, h.name) :: rest) =
      false := by
  have hmark : ∀ text ∈ ["("], text.toList.head?.all (!isIdentifierStart ·) = true := by decide
  have hplain : ∀ l, IsWordOrMark typeMarks l → l.2 ≠ "(" := by
    intro l hl heq
    exact hl.notMem hmark (by decide) (List.mem_singleton.2 heq)
  apply suitsAll_second (resultLexemes_ne_nil hh)
  · exact fun l hl => hplain l (isWordOrMark_result hh.result l hl)
  · exact hplain (.identifier, h.name) (.inl hh.name.isWord)

omit hdepth in
/-- A heading with a result begins, behind its type parameters, as a type does. -/
theorem typeNext_result {t : TypeRef} (hresult : h.result = some t) (rest : List Lexeme) :
    TypeNext (t.lexemes ++ (.identifier, h.name) :: h.tail ++ rest) := by
  rw [List.append_assoc]
  exact typeNext_lexemes (hh.result t hresult) _

/-- A member without type parameters. -/
theorem parses_plainMember (hplain : h.typeParameters = []) :
    Parses (memberBody (parseRule depth))
      (resultLexemes h.result ++ (.identifier, h.name) :: h.tail) h.body Anything := by
  have hplace := suitsAll_result hh (.ofClass .identifier)
  cases hresult : h.result with
  | none =>
    have hvoid := parses_voidMethod hh hdepth hresult
    rw [hplain] at hvoid
    exact .ifTakesText (.keyword, "void") hvoid
  | some t =>
    have hnext := typeNext_result hh hresult
    have hmarks : ∀ rest, NotNext ["void", "<"]
        (t.lexemes ++ (.identifier, h.name) :: h.tail ++ rest) :=
      fun rest => (hnext rest).notNext (by decide)
    have hrest := parses_methodRest hh hdepth hresult
    rw [hplain] at hrest
    -- a method is told from a field by the parenthesis behind its name
    have hname : Parses (do
        let name ← identifier
        if ← seesText "(" then methodRest (parseRule depth) t name []
        else fieldRest (parseRule depth) t name) ((.identifier, h.name) :: h.tail) h.body Anything :=
      (parses_identifier h.name).bind (.ifSees true (fun _ _ => rfl) hrest) fun _ _ => trivial
    -- neither `void` nor type parameters, no nested type and no constructor come first
    refine .ifLeaves (fun rest _ => (hmarks rest).suitsAll (by decide) []) ?_
    refine .ifSees false (fun rest _ => (hmarks rest).suitsAll (by decide) []) ?_
    refine parses_noTypeBody.bind (.ifSees false (fun rest _ => ?_) ?_) fun rest _ => hnext rest
    · have hfound := hplace (h.tail ++ rest)
      rw [hresult, ← List.cons_append, ← List.append_assoc] at hfound
      exact hfound
    · exact (parses_resultType hh hdepth hresult).bind hname fun _ _ =>
        notNext_of_isWord hh.name.isWord (by decide)

/-- A member with type parameters. -/
theorem parses_genericMember (hgeneric : h.typeParameters ≠ []) :
    Parses (memberBody (parseRule depth)) (genericLexemes h.typeParameters ++
      (resultLexemes h.result ++ (.identifier, h.name) :: h.tail)) h.body Anything := by
  have hplace := suitsAll_result hh (.ofClass .identifier)
  -- the bracket of the type parameters comes first
  have hopen : ∀ rest, ∃ more, genericLexemes h.typeParameters ++
      (resultLexemes h.result ++ (.identifier, h.name) :: h.tail) ++ rest =
        (.operator, "<") :: more := by
    intro rest
    rw [genericLexemes, if_neg (by simpa using hgeneric)]
    exact ⟨_, rfl⟩
  have hrest : Parses (do
      if ← takesText "void" then voidMethod (parseRule depth) h.typeParameters
      else
        let result ← type (parseRule depth)
        let name ← identifier
        methodRest (parseRule depth) result name h.typeParameters)
      (resultLexemes h.result ++ (.identifier, h.name) :: h.tail) h.body Anything := by
    cases hresult : h.result with
    | none => exact .ifTakesText (.keyword, "void") (parses_voidMethod hh hdepth hresult)
    | some t =>
      refine .ifLeaves (fun rest _ => ?_) (parses_methodWithResult hh hdepth hresult)
      have hvoid : NotNext ["void"] (t.lexemes ++ (.identifier, h.name) :: h.tail ++ rest) :=
        (typeNext_result hh hresult rest).notNext (by decide)
      exact hvoid.suitsAll List.mem_cons_self []
  refine .ifLeaves (fun rest _ => ?_) (.ifSees true (fun rest _ => ?_) ?_)
  · obtain ⟨more, hmore⟩ := hopen rest
    rw [hmore]
    rfl
  · obtain ⟨more, hmore⟩ := hopen rest
    rw [hmore]
    rfl
  · refine (parses_typeParameters hgeneric depth).bind ?_ fun _ _ => trivial
    -- a constructor has its name where a method has its result
    refine .ifSees false (fun rest _ => ?_) hrest
    rw [List.append_assoc]
    exact hplace (h.tail ++ rest)

/-- **A member of a class is read from the tokens of a heading and a semicolon**, behind its
modifiers. -/
theorem parses_memberBody :
    Parses (memberBody (parseRule depth)) (genericLexemes h.typeParameters ++
      (resultLexemes h.result ++ (.identifier, h.name) :: h.tail)) h.body Anything := by
  by_cases hplain : h.typeParameters = []
  · have hnone : genericLexemes h.typeParameters = [] := by rw [hplain]; rfl
    rw [hnone, List.nil_append]
    exact parses_plainMember hh hdepth hplain
  · exact parses_genericMember hh hdepth hplain

end

/-! ### Declarations -/

/-- The tokens of a mark, if it is a modifier. -/
def markLexemes : Mark → List Lexeme
  | .modifier word => [(.modifier, word)]
  | .use _ => []

/-- Modifiers are read from their tokens. -/
theorem accepts_front (modifiers : List String) :
    Accepts (front parse) (modifiers.map fun m => (.modifier, m))
      (fun front => front.marks = modifiers.map Mark.modifier)
      (NotClass [.modifier, .atSign]) := by
  have hstep : ∀ mark ∈ modifiers.map Mark.modifier, Parses (do
      if ← seesClass .modifier then return some (Mark.modifier (← expect (.ofClass .modifier)))
      else if ← seesAnnotationAt 0 then return some (.use (← parse .annotationUse))
      else return none) (markLexemes mark) (some mark) Anything := by
    intro mark hmark
    obtain ⟨m, -, rfl⟩ := List.mem_map.1 hmark
    have hread : Parses (do return some (Mark.modifier (← expect (.ofClass .modifier))))
        [(.modifier, m)] (some (Mark.modifier m)) Anything := .expect rfl (parses_pure _)
    exact .ifSees true (fun _ _ => rfl) hread
  have hnone : Parses (do
      if ← seesClass .modifier then return some (Mark.modifier (← expect (.ofClass .modifier)))
      else if ← seesAnnotationAt 0 then return some (.use (← parse .annotationUse))
      else return none) [] none (NotClass [.modifier, .atSign]) := by
    refine .ifSees false (fun rest hrest => hrest.suitsAll (by decide) []) ?_
    refine .ifNoAtSign (fun rest hrest l hl hmem => hrest l hl ?_) (parses_pure none)
    exact List.mem_cons_of_mem _ hmem
  have hmarks : Parses (collect do
      if ← seesClass .modifier then return some (Mark.modifier (← expect (.ofClass .modifier)))
      else if ← seesAnnotationAt 0 then return some (.use (← parse .annotationUse))
      else return none) ((modifiers.map Mark.modifier).flatMap markLexemes ++ [])
      (modifiers.map Mark.modifier) (NotClass [.modifier, .atSign]) := by
    refine .collect Anything hstep hnone (fun mark hmark => ?_) fun _ _ => trivial
    obtain ⟨m, -, rfl⟩ := List.mem_map.1 hmark
    exact ⟨List.cons_ne_nil _ _, fun _ => trivial⟩
  have hlexemes : (modifiers.map Mark.modifier).flatMap markLexemes ++ [] =
      modifiers.map fun m => ((.modifier, m) : Lexeme) := by
    rw [List.append_nil, List.flatMap_map, List.map_eq_flatMap]
    rfl
  rw [hlexemes] at hmarks
  apply Accepts.peek peeks_index
  intro first
  apply Accepts.peek (peeks_look 0)
  intro token
  exact hmarks.accepts.yield fun marks hmarks => hmarks

theorem words_map_modifier (modifiers : List String) :
    Mark.words (modifiers.map Mark.modifier) = modifiers ∧
      Mark.annotations (modifiers.map Mark.modifier) = [] := by
  constructor
  · simp [Mark.words, List.filterMap_map]
  · simp [Mark.annotations, List.filterMap_map]

/-- A declaration with these modifiers, no annotations, and a body with a property. -/
structure Fronted (modifiers : List String) (P : Body → Prop) (d : Declaration) : Prop where
  /-- Its modifiers. -/
  modifiers : d.header.modifiers = modifiers
  /-- It has no annotations. -/
  annotations : d.header.annotations = []
  /-- What it declares. -/
  body : P d.body

/-- A declaration is read behind its modifiers. -/
theorem accepts_withFront {body : Parser (Option Body)} {ls : List Lexeme} {P : Body → Prop}
    (modifiers : List String) (hbody : Accepts body ls (fun found => ∃ b, found = some b ∧ P b) after)
    (hnext : ∀ rest, after rest → NotClass [.modifier, .atSign] (ls ++ rest)) :
    Accepts (withFront parse body) (modifiers.map (fun m => (.modifier, m)) ++ ls)
      (fun found => ∃ d, found = some d ∧ Fronted modifiers P d) after := by
  refine (accepts_front modifiers).bind (fun front hmarks => ?_) hnext
  apply Accepts.peek peeks_here
  intro position
  apply hbody.finish
  intro found hfound
  obtain ⟨b, rfl, hb⟩ := hfound
  have hheader : Accepts (front.header position) []
      (fun header => header.modifiers = modifiers ∧ header.annotations = []) after := by
    apply Accepts.peek peeks_index
    intro stop
    obtain ⟨hwords, hannotations⟩ := words_map_modifier modifiers
    apply accepts_pure
    exact ⟨(congrArg Mark.words hmarks).trans hwords,
      (congrArg Mark.annotations hmarks).trans hannotations⟩
  exact hheader.yield fun header hheader => ⟨_, rfl, hheader.1, hheader.2, hb⟩

/-! ### A class with one method -/

/-- A declaration of the method of a heading. -/
def Declares (h : Heading) : Declaration → Prop := Fronted h.modifiers (· = h.body)

section
variable {h : Heading} (hh : h.IsWritten) {depth : Nat} (hdepth : h.lexemes.length ≤ depth)
include hh

/-- No token of a heading is a brace or a semicolon. -/
theorem notMem_fences : ∀ l ∈ h.lexemes, l.2 ∉ [";", openBrace, closeBrace] :=
  fun l hl => (h.isWordOrMark hh l hl).notMem (by decide) (by decide)

omit hh in
theorem lexemes_ne_nil (h : Heading) : h.lexemes ≠ [] := by
  rw [Heading.lexemes_eq]
  simp

theorem notNext_heading (rest : List Lexeme) :
    NotNext [";", openBrace, closeBrace] (h.lexemes ++ rest) := by
  have hfences := notMem_fences hh
  cases hall : h.lexemes with
  | nil => exact absurd hall (lexemes_ne_nil h)
  | cons l ls =>
    rw [hall] at hfences
    exact notNext_cons (hfences l List.mem_cons_self)

/-- Behind its modifiers a heading goes on with type parameters or a result. -/
theorem notClass_behindModifiers (rest : List Lexeme) :
    NotClass [.modifier, .atSign] (genericLexemes h.typeParameters ++
      (resultLexemes h.result ++ (.identifier, h.name) :: h.tail) ++ rest) := by
  rw [genericLexemes]
  split
  · cases hresult : h.result with
    | none => exact notClass_cons (by decide)
    | some t => exact (typeNext_result hh hresult rest).notClass (by decide)
  · exact notClass_cons (by decide)

include hdepth

/-- **A member of a class is read from the tokens of a heading and a semicolon.** -/
theorem accepts_classMember :
    Accepts (classMember (parseRule depth)) (h.lexemes ++ [(.separator, ";")])
      (fun found => ∃ d, found = some d ∧ Declares h d) Anything := by
  have hnext : ∀ rest, NotNext [";", openBrace, closeBrace]
      (h.lexemes ++ [(.separator, ";")] ++ rest) := by
    intro rest
    rw [List.append_assoc]
    exact notNext_heading hh _
  have hblock : ∀ rest, suitsAll [.text "static", .text openBrace]
      (h.lexemes ++ [(.separator, ";")] ++ rest) = false := by
    intro rest
    rw [List.append_assoc]
    apply suitsAll_second (lexemes_ne_nil h)
    · exact fun l hl heq => notMem_fences hh l hl (by rw [heq]; decide)
    · decide
  have hbody : Accepts (do return some (← memberBody (parseRule depth)))
      (genericLexemes h.typeParameters ++
        (resultLexemes h.result ++ (.identifier, h.name) :: h.tail))
      (fun found => ∃ b, found = some b ∧ b = h.body) Anything :=
    (parses_memberBody hh hdepth).accepts.yield fun b hb => ⟨b, rfl, hb⟩
  have hfront : Accepts (withFront (parseRule depth) do return some (← memberBody (parseRule depth)))
      (h.lexemes ++ [(.separator, ";")]) (fun found => ∃ d, found = some d ∧ Declares h d)
      Anything := by
    rw [Heading.lexemes_semicolon]
    exact accepts_withFront h.modifiers hbody fun rest _ => notClass_behindModifiers hh rest
  refine .ifLeaves (fun rest _ => (hnext rest).suitsAll (by decide) []) ?_
  refine .ifSees false (fun rest _ => hblock rest) ?_
  exact .ifSees false (fun rest _ => (hnext rest).suitsAll (by decide) []) hfront

/-- A heading and a semicolon in braces are the members of a class. -/
theorem accepts_members :
    Accepts (members (parseRule depth) .classType)
      ((.separator, openBrace) ::
        (h.lexemes ++ [(.separator, ";")] ++ [(.separator, closeBrace)]))
      (fun ds => ∃ d, ds = [d] ∧ Declares h d) Anything := by
  have hitem : Accepts (do
      if ← seesText closeBrace then return none else return some (← classMember (parseRule depth)))
      (h.lexemes ++ [(.separator, ";")])
      (fun round => ∃ found, round = some found ∧ ∃ d, found = some d ∧ Declares h d) Anything := by
    refine .ifSees false (fun rest _ => ?_) ?_
    · rw [List.append_assoc]
      exact (notNext_heading hh _).suitsAll (by decide) []
    · exact (accepts_classMember hh hdepth).yield fun found hfound => ⟨found, rfl, hfound⟩
  have hnone : Parses (do
      if ← seesText closeBrace then return none else return some (← classMember (parseRule depth)))
      [] none (fun rest => suitsAll [.text closeBrace] rest = true) :=
    .ifSees true (fun _ hrest => hrest) (parses_pure none)
  have hitems : Accepts (memberItems (parseRule depth) .classType)
      (h.lexemes ++ [(.separator, ";")])
      (fun items => ∃ found, items = [found] ∧ ∃ d, found = some d ∧ Declares h d)
      (fun rest => suitsAll [.text closeBrace] rest = true) :=
    .collectOne Anything hitem hnone fun _ _ => trivial
  apply Accepts.symbol
  refine hitems.bind (fun items hfound => ?_) fun rest _ => rfl
  obtain ⟨found, rfl, d, rfl, hd⟩ := hfound
  exact .symbol (accepts_pure ⟨d, rfl, hd⟩)

/-- The tokens of a class whose only member is written as a heading and a semicolon. -/
def classLexemes (name : String) (h : Heading) : List Lexeme :=
  (.keyword, "class") :: (.identifier, name) :: (.separator, openBrace) ::
    (h.lexemes ++ [(.separator, ";")] ++ [(.separator, closeBrace)])

/-- What is declared by a class whose only member is the method of a heading. -/
def DeclaresClass (name : String) (h : Heading) (b : Body) : Prop :=
  ∃ d extent, b = .type .classType name [] [] [] [d] extent ∧ Declares h d

theorem accepts_classDeclaration (name : String) :
    Accepts (classDeclaration (parseRule (depth + 1))) (classLexemes name h) (DeclaresClass name h)
      Anything := by
  have hmembers : Accepts (measured (parseRule (depth + 1) (.members .classType)))
      ((.separator, openBrace) :: (h.lexemes ++ [(.separator, ";")] ++ [(.separator, closeBrace)]))
      (fun measure => ∃ d, measure.1 = [d] ∧ Declares h d) Anything :=
    (accepts_members hh hdepth).measured
  have hplain : Parses (typeParameters? (parseRule (depth + 1))) [] [] (NotNext ["<"]) :=
    .ifSees false (fun rest hrest => hrest.suitsAll List.mem_cons_self []) (parses_pure [])
  apply Accepts.symbol
  refine (parses_identifier name).thenAccepts ?_ fun _ _ => trivial
  refine hplain.thenAccepts ?_ fun _ _ => notNext_cons (by decide)
  -- neither a class to extend nor interfaces to implement are named
  refine .ifLeaves (fun _ _ => rfl) (.ifLeaves (fun _ _ => rfl) ?_)
  apply hmembers.finish
  intro measure hmeasure
  obtain ⟨ds, extent⟩ := measure
  obtain ⟨d, rfl, hd⟩ := hmeasure
  exact accepts_pure ⟨d, extent, rfl, hd⟩

/-- A class with one method is a type declaration. -/
theorem accepts_typeDeclaration (name : String) :
    Accepts (parseRule (depth + 2) .typeDeclaration) (classLexemes name h)
      (Fronted [] (DeclaresClass name h)) Anything := by
  have hbody : Accepts (typeBody? (parseRule (depth + 1))) (classLexemes name h)
      (fun found => ∃ b, found = some b ∧ DeclaresClass name h b) Anything := by
    refine .ifSees true (fun _ _ => rfl) ?_
    exact (accepts_classDeclaration hh hdepth name).yield fun b hb => ⟨b, rfl, hb⟩
  have hfront : Accepts (withFront (parseRule (depth + 1)) (typeBody? (parseRule (depth + 1))))
      (classLexemes name h)
      (fun found => ∃ d, found = some d ∧ Fronted [] (DeclaresClass name h) d) Anything :=
    accepts_withFront [] hbody fun _ _ => notClass_cons (by decide)
  apply hfront.finish
  intro found hfound
  obtain ⟨d, rfl, hd⟩ := hfound
  exact accepts_pure hd

/-- One round of the declarations of a unit reads a class with one method. -/
theorem accepts_types (name : String) :
    Accepts (collect do
      match ← look 0 with
      | none => return none
      | some _ => return some (← needsMore (topLevel (parseRule (depth + 2)))))
      (classLexemes name h)
      (fun items => ∃ found, items = [found] ∧ ∃ d, found = some d ∧
        Fronted [] (DeclaresClass name h) d)
      (fun rest => rest = []) := by
  have htop : Accepts (topLevel (parseRule (depth + 2))) (classLexemes name h)
      (fun found => ∃ d, found = some d ∧ Fronted [] (DeclaresClass name h) d) Anything :=
    .ifLeaves (fun _ _ => rfl)
      ((accepts_typeDeclaration hh hdepth name).yield fun d hd => ⟨d, rfl, hd⟩)
  apply Accepts.collectOne Anything
  · intro tokens i mark rest hahead hrest
    obtain ⟨found, hfound, hrun⟩ := htop tokens i mark rest hahead hrest
    obtain ⟨t, ht, -⟩ := exists_of_ahead_cons hahead
    have hlook : look 0 tokens ⟨i, mark⟩ = .done (some t) ⟨i, mark⟩ := by
      rw [look, Nat.add_zero, ht]
    have hmore : needsMore (topLevel (parseRule (depth + 2))) tokens ⟨i, mark⟩ =
        .done found ⟨i + (classLexemes name h).length, mark⟩ := by rw [needsMore, hrun]
    refine ⟨some found, ⟨found, rfl, hfound⟩, ?_⟩
    rw [bind_of_done hlook]
    exact bind_of_done hmore
  · intro tokens i mark rest hahead hrest
    have hlook : look 0 tokens ⟨i, mark⟩ = .done none ⟨i, mark⟩ := by
      rw [look, Nat.add_zero, getElem?_of_ahead_nil (hahead.trans (by rw [hrest]; rfl))]
    rw [bind_of_done hlook]
    rfl
  · exact fun _ _ => trivial

end

/-- Where a class comes first there is no package, and no annotation before it. -/
theorem package?_eq_none {tokens : Array Token} {rest : List Lexeme}
    (hahead : ahead tokens 0 = (.keyword, "class") :: rest) :
    package? parse tokens ⟨0, 0⟩ = .done none ⟨0, 0⟩ := by
  have hsign : seesAnnotationAt 0 tokens ⟨0, 0⟩ = .done false ⟨0, 0⟩ :=
    parses_noAtSign tokens 0 0 _ hahead (notClass_cons (by decide))
  have hword : takesText "package" tokens ⟨0, 0⟩ = .done false ⟨0, 0⟩ :=
    parses_leaves [.text "package"] tokens 0 0 _ hahead rfl
  rw [package?, bind_of_done hsign]
  show (takesText "package" >>= fun _ => _) tokens ⟨0, 0⟩ = _
  rw [bind_of_done hword]
  rfl

/-- **A class with one method is read from its tokens.** -/
theorem exists_parseUnit {h : Heading} (hh : h.IsWritten) (name : String) {tokens : Array Token}
    (hahead : ahead tokens 0 = classLexemes name h) :
    ∃ unit, parseUnit tokens = .ok unit ∧
      ∃ d, unit.types = [d] ∧ Fronted [] (DeclaresClass name h) d := by
  have hsize : (classLexemes name h).length ≤ tokens.size := by
    rw [← hahead]
    exact length_ahead_le tokens 0
  have hdepth : h.lexemes.length ≤ 16 * tokens.size + 14 := by
    simp only [classLexemes, List.length_cons, List.length_append] at hsize
    omega
  have hpackage : package? (parseRule (depthBound tokens)) tokens ⟨0, 0⟩ = .done none ⟨0, 0⟩ :=
    package?_eq_none hahead
  have himports : collect (do
      if ← seesText "import" then
        importDeclaration
        return some ()
      else return none) tokens ⟨0, 0⟩ = .done [] ⟨0, 0⟩ := by
    have hnone : Parses (do
        if ← seesText "import" then
          importDeclaration
          return some ()
        else return none) [] none (NotNext ["import"]) :=
      .ifSees false (fun rest hrest => hrest.suitsAll List.mem_cons_self []) (parses_pure none)
    have hrun := hnone tokens 0 0 _ hahead (notNext_cons (by decide))
    rw [collect, bind_of_done hrun]
    rfl
  obtain ⟨items, ⟨found, rfl, d, rfl, hd⟩, htypes⟩ :=
    accepts_types hh hdepth name tokens 0 0 [] (by rw [hahead, List.append_nil]) rfl
  have hrun : compilationUnit (parseRule (depthBound tokens)) tokens ⟨0, 0⟩ =
      .done { package := none, types := [d] } ⟨0 + (classLexemes name h).length, 0⟩ := by
    rw [compilationUnit, bind_of_done hpackage, bind_of_done himports]
    exact bind_of_done htypes
  refine ⟨{ package := none, types := [d] }, ?_, d, rfl, hd⟩
  rw [parseUnit, hrun]

end SourceDoc.Grammar
