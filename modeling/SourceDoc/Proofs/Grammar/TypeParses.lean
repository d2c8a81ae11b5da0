import SourceDoc.Grammar.Unit
import SourceDoc.Proofs.Grammar.Parses
import SourceDoc.Proofs.Tree.TypeTexts

/-!
# Types are read from their tokens

The grammar of types reads a type from the tokens of its standard form, if it is allowed to nest as
deep as there are tokens (`parses_type`, `parses_objectType`).  What follows the type must not go on
with it: no angle bracket, no point and no square bracket.
-/

namespace SourceDoc.Grammar

open SourceDoc.Grammar.Parser SourceDoc.Token

variable {after : List Lexeme → Prop}

/-! ### What follows -/

/-- The next token, if there is one, has none of these texts. -/
def NotNext (texts : List String) (rest : List Lexeme) : Prop := ∀ l ∈ rest.head?, l.2 ∉ texts

theorem NotNext.mono {texts texts' : List String} {rest : List Lexeme} (h : NotNext texts rest)
    (htexts : ∀ text ∈ texts', text ∈ texts) : NotNext texts' rest :=
  fun l hl hmem => h l hl (htexts _ hmem)

theorem notNext_cons {texts : List String} {l : Lexeme} {rest : List Lexeme} (h : l.2 ∉ texts) :
    NotNext texts (l :: rest) := by
  intro k hk
  obtain rfl : l = k := Option.some.inj hk
  exact h

theorem NotNext.suitsAll {texts : List String} {rest : List Lexeme} (h : NotNext texts rest)
    {text : String} (htext : text ∈ texts) (patterns : List Pattern) :
    suitsAll (.text text :: patterns) rest = false := by
  cases rest with
  | nil => rfl
  | cons l rest =>
    have hne : l.2 ≠ text := by
      rintro rfl
      exact h l rfl htext
    simp [Grammar.suitsAll, suits, hne]

/-! ### Dimensions -/

theorem dimensionLexemes_eq_flatMap (count : Nat) : dimensionLexemes count =
    (List.replicate count ()).flatMap fun _ => [(.separator, "["), (.separator, "]")] := by
  rw [dimensionLexemes, List.flatMap, List.map_replicate]

theorem parses_dimensions (count : Nat) :
    Parses dimensions (dimensionLexemes count) count (NotNext ["["]) := by
  have hpairs : Parses (collect do
      if ← takes [.text "[", .text "]"] then return some () else return none)
      ((List.replicate count ()).flatMap (fun _ => [(.separator, "["), (.separator, "]")]) ++ [])
      (List.replicate count ()) (NotNext ["["]) := by
    have hpair : suitsAll [.text "[", .text "]"] [(.separator, "["), (.separator, "]")] = true := by
      decide
    refine .collect Anything (fun _ _ => ?_) ?_ (fun _ _ => ⟨by simp, fun _ => trivial⟩)
      fun _ _ => trivial
    · exact .ifTakes hpair rfl (parses_pure (some ()))
    · exact .ifLeaves (fun rest hrest => hrest.suitsAll (by decide) _) (parses_pure none)
  rw [List.append_nil, ← dimensionLexemes_eq_flatMap] at hpairs
  have hcount : Parses dimensions (dimensionLexemes count) (List.replicate count ()).length
      (NotNext ["["]) := hpairs.yield
  rwa [List.length_replicate] at hcount

/-! ### Types -/

/-- The texts that may go on with a type. -/
def typeGoesOn : List String := ["<", ".", "["]

/-- What may follow a type argument. -/
def EndsArgument (rest : List Lexeme) : Prop := ∀ l ∈ rest.head?, l.2 ∈ [",", ">"]

theorem EndsArgument.notNext {rest : List Lexeme} (h : EndsArgument rest) {texts : List String}
    (htexts : ∀ text ∈ [",", ">"], text ∉ texts) : NotNext texts rest :=
  fun l hl => htexts l.2 (h l hl)

theorem EndsArgument.suitsAll {rest : List Lexeme} (h : EndsArgument rest) {text : String}
    (htext : text ∉ [",", ">"]) (patterns : List Pattern) :
    suitsAll (.text text :: patterns) rest = false := by
  have hnext : NotNext [text] rest := h.notNext fun other hother hmem => by
    rw [List.mem_singleton.1 hmem] at hother
    exact htext hother
  exact hnext.suitsAll List.mem_cons_self patterns

/-- The first token of a chain of names is the first name. -/
theorem exists_lexemes_named {segments : List Segment} (hne : segments ≠ [])
    (h : Segment.AreWritten segments) : ∃ name ls, IsWordOf .identifier name ∧
      [(.separator, ".")].intercalate (Segment.lexemesAll segments) = (.identifier, name) :: ls := by
  cases segments with
  | nil => exact absurd rfl hne
  | cons s segments =>
    obtain ⟨name, arguments⟩ := s
    obtain ⟨ls, hls⟩ : ∃ ls, (Segment.mk name arguments).lexemes = (.identifier, name) :: ls := by
      cases arguments with
      | nil => exact ⟨[], by rw [Segment.lexemes]⟩
      | cons first rest => exact ⟨_, by rw [Segment.lexemes]⟩
    have heq := intercalate_singleton_eq (.separator, ".") Segment.lexemes (.mk name arguments) segments
    rw [← Segment.lexemesAll_eq, hls, List.cons_append] at heq
    exact ⟨name, _, h.1.1, heq⟩

/-- The first token of a type is a word. -/
theorem exists_lexemes_cons {t : TypeRef} (h : t.IsWritten) :
    ∃ l ls, t.lexemes = l :: ls ∧ IsWord l.2 := by
  cases t with
  | basic name count =>
    rw [TypeRef.lexemes]
    exact ⟨_, _, rfl, (show IsWordOf .basicType name from h).isWord⟩
  | named segments count =>
    obtain ⟨name, ls, hname, hls⟩ := exists_lexemes_named h.1 h.2
    rw [TypeRef.lexemes, hls]
    exact ⟨_, _, rfl, hname.isWord⟩

/-- A word is none of the texts that begin no word. -/
theorem notNext_of_isWord {l : Lexeme} (h : IsWord l.2) {texts : List String}
    (htexts : ∀ text ∈ texts, text.toList.head?.all (!isIdentifierStart ·) = true)
    {rest : List Lexeme} : NotNext texts (l :: rest) := by
  refine notNext_cons fun hmem => ?_
  obtain ⟨c, more, hchars, hc, -⟩ := h
  have hnone := htexts l.2 hmem
  rw [hchars, List.head?_cons, Option.all_some, hc] at hnone
  cases hnone

/-- The items of a list have no more tokens than the list. -/
theorem length_le_length_intercalate (l : Lexeme) {part : List Lexeme} {parts : List (List Lexeme)}
    (h : part ∈ parts) : part.length ≤ ([l].intercalate parts).length := by
  induction parts with
  | nil => cases h
  | cons first parts ih =>
    cases parts with
    | nil =>
      obtain rfl := List.mem_singleton.1 h
      rw [List.intercalate_singleton]
    | cons next parts =>
      rw [List.intercalate_cons_cons, List.length_append, List.length_append]
      rcases List.mem_cons.1 h with rfl | h
      · omega
      · have := ih h
        omega

/-- A chain of names is read from its tokens, if each name is. -/
theorem parses_reference {segments : List Segment} (hne : segments ≠ [])
    (hwritten : Segment.AreWritten segments)
    (h : ∀ s ∈ segments, ∀ depth, s.lexemes.length ≤ depth + 1 →
      Parses (segment (parseRule depth)) s.lexemes s (NotNext ["<"])) {depth : Nat}
    (hdepth : (List.intercalate [(.separator, ".")] (Segment.lexemesAll segments)).length ≤ depth) :
    Parses (parseRule depth .reference)
      (List.intercalate [(.separator, ".")] (Segment.lexemesAll segments)) segments
      (NotNext ["<", "."]) := by
  obtain ⟨name, ls, -, hls⟩ := exists_lexemes_named hne hwritten
  obtain ⟨depth, rfl⟩ : ∃ d, depth = d + 1 := by
    rw [hls, List.length_cons] at hdepth
    exact ⟨depth - 1, by omega⟩
  rw [Segment.lexemesAll_eq] at hdepth ⊢
  have hitems : ∀ s ∈ segments,
      Parses (segment (parseRule depth)) s.lexemes s (NotNext ["<"]) := by
    intro s hs
    have hle := length_le_length_intercalate (.separator, ".")
      (List.mem_map_of_mem (f := Segment.lexemes) hs)
    exact h s hs depth (hle.trans hdepth)
  refine Parses.separated (.separator, ".") hne hitems
    ⟨fun rest => ?_, fun rest hrest => ?_⟩ fun rest hrest => hrest.suitsAll (by decide) []
  · exact notNext_cons (by decide)
  · exact hrest.mono (by decide)

/-- Type arguments are read from their tokens, if each of them is. -/
theorem parses_typeArguments {arguments : List TypeArgument} (hne : arguments ≠ []) {depth : Nat}
    (h : ∀ a ∈ arguments, Parses (typeArgument (parseRule depth)) a.lexemes a EndsArgument) :
    Parses (typeArguments (parseRule depth)) ((.operator, "<") ::
      (List.intercalate [(.separator, ",")] (arguments.map TypeArgument.lexemes) ++
        [(.operator, ">")])) arguments after := by
  have hlisted : Parses (listed ">" (typeArgument (parseRule depth)))
      (List.intercalate [(.separator, ",")] (arguments.map TypeArgument.lexemes) ++
        [(.operator, ">")]) arguments after := by
    refine Parses.listed (.operator, ">") (by decide) EndsArgument hne h fun rest => ?_
    constructor
    · intro l hl
      obtain rfl := Option.some.inj hl
      decide
    · intro l hl
      obtain rfl := Option.some.inj hl
      decide
  exact hlisted.symbol

/-- A chain of names with dimensions behind it. -/
theorem parses_namedType {parse : Descend} {segments : List Segment} {ls : List Lexeme}
    (h : Parses (parse .reference) ls segments (NotNext ["<", "."])) (count : Nat) :
    Parses (do
      let segments ← parse .reference
      return TypeRef.named segments (← dimensions)) (ls ++ dimensionLexemes count)
      (.named segments count) (NotNext typeGoesOn) := by
  have hdimensions : Parses (do return TypeRef.named segments (← dimensions))
      (dimensionLexemes count) (.named segments count) (NotNext typeGoesOn) :=
    ((parses_dimensions count).mono fun rest hrest => hrest.mono (by decide)).yield
  refine h.bind hdimensions fun rest hrest => ?_
  cases count with
  | zero => exact hrest.mono (by decide)
  | succ count =>
    rw [dimensionLexemes_succ]
    exact notNext_cons (by decide)

mutual

/-- **A type that stands for objects is read from its tokens.** -/
theorem parses_objectType : (t : TypeRef) → t.IsWritten → t.IsObject → (depth : Nat) →
    t.lexemes.length ≤ depth →
      Parses (objectType (parseRule depth)) t.lexemes t (NotNext typeGoesOn)
  | .basic name 0, _, hobject, _, _ => absurd rfl hobject
  | .basic name (count + 1), h, _, depth, hdepth => by
    rw [TypeRef.lexemes, dimensionLexemes_succ]
    have hdimensions : Parses (do return TypeRef.basic name (1 + (← dimensions)))
        (dimensionLexemes count) (.basic name (1 + count)) (NotNext typeGoesOn) :=
      ((parses_dimensions count).mono fun rest hrest => hrest.mono (by decide)).yield
    rw [Nat.add_comm 1 count] at hdimensions
    exact .ifSees true (fun rest _ => rfl) (.expect rfl hdimensions.symbol.symbol)
  | .named segments count, h, _, depth, hdepth => by
    rw [TypeRef.lexemes] at hdepth ⊢
    rw [List.length_append] at hdepth
    obtain ⟨name, ls, -, hls⟩ := exists_lexemes_named h.1 h.2
    have hreference := parses_reference h.1 h.2 (parses_segmentList segments h.2)
      (show _ ≤ depth by omega)
    refine .ifSees false (fun rest _ => ?_) (parses_namedType hreference count)
    rw [hls]
    rfl

theorem parses_segment : (s : Segment) → s.IsWritten → (depth : Nat) →
    s.lexemes.length ≤ depth + 1 →
      Parses (segment (parseRule depth)) s.lexemes s (NotNext ["<"])
  | .mk name [], h, depth, hdepth => by
    rw [Segment.lexemes]
    have hplain : Parses (do
        if ← seesText "<" then return Segment.mk name (← typeArguments (parseRule depth))
        else return .mk name []) [] (.mk name []) (NotNext ["<"]) :=
      .ifSees false (fun rest hrest => hrest.suitsAll (by decide) []) (parses_pure _)
    exact .expect rfl hplain
  | .mk name (first :: rest), h, depth, hdepth => by
    rw [Segment.lexemes, TypeArgument.lexemesAll_eq, ← List.map_cons] at hdepth ⊢
    rw [List.length_cons, List.length_cons, List.length_append] at hdepth
    have harguments : ∀ a ∈ first :: rest,
        Parses (typeArgument (parseRule depth)) a.lexemes a EndsArgument := by
      intro a ha
      have hle := length_le_length_intercalate (.separator, ",")
        (List.mem_map_of_mem (f := TypeArgument.lexemes) ha)
      exact parses_typeArgumentList (first :: rest) h.2 a ha depth (by omega)
    have hgeneric : Parses (do
        if ← seesText "<" then return Segment.mk name (← typeArguments (parseRule depth))
        else return .mk name []) _ (.mk name (first :: rest)) (NotNext ["<"]) :=
      .ifSees true (fun rest _ => rfl)
        (parses_typeArguments (List.cons_ne_nil first rest) harguments).yield
    exact .expect rfl hgeneric

theorem parses_typeArgument : (a : TypeArgument) → a.IsWritten → (depth : Nat) →
    a.lexemes.length ≤ depth → Parses (typeArgument (parseRule depth)) a.lexemes a EndsArgument
  | .wildcard, _, depth, _ => by
    rw [TypeArgument.lexemes]
    refine .ifTakesText (.operator, "?") ?_
    refine .ifLeaves (fun rest hrest => ?_) (.ifLeaves (fun rest hrest => ?_) (parses_pure _))
    · exact hrest.suitsAll (by decide) []
    · exact hrest.suitsAll (by decide) []
  | .bounded bound type, h, depth, hdepth => by
    rw [TypeArgument.lexemes, List.length_cons, List.length_cons] at hdepth
    have htype := (parses_objectType type h.2 h.1 depth (by omega)).mono
      fun rest (hrest : EndsArgument rest) => hrest.notNext (by decide)
    rw [TypeArgument.lexemes]
    refine .ifTakesText (.operator, "?") ?_
    cases bound with
    | upper => exact .ifTakesText (.keyword, "extends") htype.yield
    | lower =>
      refine .ifLeaves (fun rest _ => ?_) (.ifTakesText (.keyword, "super") htype.yield)
      rfl
  | .exact type, h, depth, hdepth => by
    rw [TypeArgument.lexemes] at hdepth ⊢
    have htype := (parses_objectType type h.2 h.1 depth hdepth).mono
      fun rest (hrest : EndsArgument rest) => hrest.notNext (by decide)
    obtain ⟨l, ls, hls, hword⟩ := exists_lexemes_cons h.2
    refine .ifLeaves (fun rest _ => ?_) htype.yield
    have hnext : NotNext ["?"] (l :: (ls ++ rest)) := notNext_of_isWord hword (by decide)
    rw [hls]
    exact hnext.suitsAll List.mem_cons_self []

theorem parses_segmentList : (segments : List Segment) → Segment.AreWritten segments →
    ∀ s ∈ segments, ∀ depth, s.lexemes.length ≤ depth + 1 →
      Parses (segment (parseRule depth)) s.lexemes s (NotNext ["<"])
  | [], _ => nofun
  | s :: segments, h => by
    rw [List.forall_mem_cons]
    exact ⟨parses_segment s h.1, parses_segmentList segments h.2⟩

theorem parses_typeArgumentList : (arguments : List TypeArgument) →
    TypeArgument.AreWritten arguments → ∀ a ∈ arguments, ∀ depth, a.lexemes.length ≤ depth →
      Parses (typeArgument (parseRule depth)) a.lexemes a EndsArgument
  | [], _ => nofun
  | a :: arguments, h => by
    rw [List.forall_mem_cons]
    exact ⟨parses_typeArgument a h.1, parses_typeArgumentList arguments h.2⟩

end

/-- **A type is read from its tokens.** -/
theorem parses_type {t : TypeRef} (h : t.IsWritten) {depth : Nat} (hdepth : t.lexemes.length ≤ depth) :
    Parses (type (parseRule depth)) t.lexemes t (NotNext typeGoesOn) := by
  cases t with
  | basic name count =>
    rw [TypeRef.lexemes]
    have hdimensions : Parses (do return TypeRef.basic name (← dimensions)) (dimensionLexemes count)
        (.basic name count) (NotNext typeGoesOn) :=
      ((parses_dimensions count).mono fun rest hrest => hrest.mono (by decide)).yield
    exact .ifSees true (fun rest _ => rfl) (.expect rfl hdimensions)
  | named segments count =>
    rw [TypeRef.lexemes] at hdepth ⊢
    rw [List.length_append] at hdepth
    obtain ⟨name, ls, -, hls⟩ := exists_lexemes_named h.1 h.2
    have hreference := parses_reference h.1 h.2 (parses_segmentList segments h.2)
      (show _ ≤ depth by omega)
    refine .ifSees false (fun rest _ => by rw [hls]; rfl) ?_
    exact .ifSees true (fun rest _ => by rw [hls]; rfl) (parses_namedType hreference count)

/-- A list of types is read from the tokens of the types. -/
theorem parses_typeList {types : List TypeRef} (hne : types ≠ [])
    (h : ∀ t ∈ types, t.IsWritten ∧ t.IsObject) {depth : Nat}
    (hdepth : ([(.separator, ",")].intercalate (types.map TypeRef.lexemes)).length ≤ depth) :
    Parses (typeList (parseRule depth)) ([(.separator, ",")].intercalate (types.map TypeRef.lexemes))
      types (NotNext ("," :: typeGoesOn)) := by
  have hitems : ∀ t ∈ types,
      Parses (objectType (parseRule depth)) t.lexemes t (NotNext typeGoesOn) := by
    intro t ht
    have hle := length_le_length_intercalate (.separator, ",")
      (List.mem_map_of_mem (f := TypeRef.lexemes) ht)
    exact parses_objectType t (h t ht).1 (h t ht).2 depth (hle.trans hdepth)
  refine Parses.separated (.separator, ",") hne hitems
    ⟨fun rest => ?_, fun rest hrest => ?_⟩ fun rest hrest => hrest.suitsAll (by decide) []
  · exact notNext_cons (by decide)
  · exact hrest.mono (by decide)

end SourceDoc.Grammar
