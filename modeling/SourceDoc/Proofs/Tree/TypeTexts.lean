import SourceDoc.Proofs.Token.Spelling
import SourceDoc.Tree.TypeRef

/-!
# The texts of types

A type that was read is made of words: names of basic types, identifiers, and type arguments that
stand for objects (`TypeRef.IsWritten`).  Its standard form is written with the tokens
`TypeRef.lexemes` (`TypeRef.fronts_render`).
-/

namespace SourceDoc

open SourceDoc.Token

theorem forall_mem_intercalate {α : Type} {P : α → Prop} {separator : α}
    {parts : List (List α)} (hseparator : P separator)
    (h : ∀ part ∈ parts, ∀ a ∈ part, P a) :
    ∀ a ∈ [separator].intercalate parts, P a := by
  induction parts with
  | nil =>
    intro a ha
    cases ha
  | cons part parts ih =>
    have hpart := h part List.mem_cons_self
    have hrest := ih fun q hq => h q (List.mem_cons_of_mem part hq)
    cases parts with
    | nil => rwa [List.intercalate_singleton]
    | cons next parts =>
      rw [List.intercalate_cons_cons, List.append_assoc]
      exact List.forall_mem_append.2
        ⟨hpart, List.forall_mem_append.2 ⟨List.forall_mem_singleton.2 hseparator, hrest⟩⟩

/-! ### Types that were read -/

/-- A type that stands for objects: a chain of names, or an array. -/
def TypeRef.IsObject : TypeRef → Prop
  | .basic _ dimensions => dimensions ≠ 0
  | .named _ _ => True

mutual

/-- A type made of words. -/
def TypeRef.IsWritten : TypeRef → Prop
  | .basic name _ => IsWordOf .basicType name
  | .named segments _ => segments ≠ [] ∧ Segment.AreWritten segments

/-- A segment made of words. -/
def Segment.IsWritten : Segment → Prop
  | .mk name arguments => IsWordOf .identifier name ∧ TypeArgument.AreWritten arguments

/-- A type argument made of words. -/
def TypeArgument.IsWritten : TypeArgument → Prop
  | .wildcard => True
  | .bounded _ type => type.IsObject ∧ type.IsWritten
  | .exact type => type.IsObject ∧ type.IsWritten

/-- Segments made of words. -/
def Segment.AreWritten : List Segment → Prop
  | [] => True
  | segment :: rest => segment.IsWritten ∧ Segment.AreWritten rest

/-- Type arguments made of words. -/
def TypeArgument.AreWritten : List TypeArgument → Prop
  | [] => True
  | argument :: rest => argument.IsWritten ∧ TypeArgument.AreWritten rest

end

theorem Segment.areWritten_iff {segments : List Segment} :
    Segment.AreWritten segments ↔ ∀ s ∈ segments, s.IsWritten := by
  induction segments with
  | nil => simp [Segment.AreWritten]
  | cons s segments ih => simp [Segment.AreWritten, ih]

theorem TypeArgument.areWritten_iff {arguments : List TypeArgument} :
    TypeArgument.AreWritten arguments ↔ ∀ a ∈ arguments, a.IsWritten := by
  induction arguments with
  | nil => simp [TypeArgument.AreWritten]
  | cons a arguments ih => simp [TypeArgument.AreWritten, ih]

theorem TypeRef.IsWritten.addDimensions {t : TypeRef} (h : t.IsWritten) (extra : Nat) :
    (t.addDimensions extra).IsWritten := by
  cases t with
  | basic name dimensions =>
    rw [TypeRef.addDimensions]
    exact h
  | named segments dimensions =>
    rw [TypeRef.addDimensions]
    exact h

/-! ### Tokens of types -/

/-- The tokens of array dimensions. -/
def dimensionLexemes (count : Nat) : List Lexeme :=
  (List.replicate count [(.separator, "["), (.separator, "]")]).flatten

mutual

/-- The tokens of a type. -/
def TypeRef.lexemes : TypeRef → List Lexeme
  | .basic name dimensions => (.basicType, name) :: dimensionLexemes dimensions
  | .named segments dimensions =>
    List.intercalate [(.separator, ".")] (Segment.lexemesAll segments) ++ dimensionLexemes dimensions

/-- The tokens of a segment. -/
def Segment.lexemes : Segment → List Lexeme
  | .mk name [] => [(.identifier, name)]
  | .mk name (first :: rest) =>
    (.identifier, name) :: (.operator, "<") ::
      (List.intercalate [(.separator, ",")] (first.lexemes :: TypeArgument.lexemesAll rest) ++
        [(.operator, ">")])

/-- The tokens of a type argument. -/
def TypeArgument.lexemes : TypeArgument → List Lexeme
  | .wildcard => [(.operator, "?")]
  | .bounded bound type => (.operator, "?") :: (.keyword, bound.word) :: type.lexemes
  | .exact type => type.lexemes

/-- The tokens of each of some segments. -/
def Segment.lexemesAll : List Segment → List (List Lexeme)
  | [] => []
  | segment :: rest => segment.lexemes :: Segment.lexemesAll rest

/-- The tokens of each of some type arguments. -/
def TypeArgument.lexemesAll : List TypeArgument → List (List Lexeme)
  | [] => []
  | argument :: rest => argument.lexemes :: TypeArgument.lexemesAll rest

end

theorem Segment.lexemesAll_eq (segments : List Segment) :
    Segment.lexemesAll segments = segments.map Segment.lexemes := by
  induction segments with
  | nil => rfl
  | cons s segments ih => rw [Segment.lexemesAll, ih, List.map_cons]

theorem TypeArgument.lexemesAll_eq (arguments : List TypeArgument) :
    TypeArgument.lexemesAll arguments = arguments.map TypeArgument.lexemes := by
  induction arguments with
  | nil => rfl
  | cons a arguments ih => rw [TypeArgument.lexemesAll, ih, List.map_cons]

theorem Segment.renderAll_eq (segments : List Segment) :
    Segment.renderAll segments = segments.map Segment.render := by
  induction segments with
  | nil => rfl
  | cons s segments ih => rw [Segment.renderAll, ih, List.map_cons]

theorem TypeArgument.renderAll_eq (arguments : List TypeArgument) :
    TypeArgument.renderAll arguments = arguments.map TypeArgument.render := by
  induction arguments with
  | nil => rfl
  | cons a arguments ih => rw [TypeArgument.renderAll, ih, List.map_cons]

/-! ### How texts begin -/

theorem Segment.begins_render {s : Segment} (h : s.IsWritten) : Begins isIdentifierStart s.render := by
  obtain ⟨name, arguments⟩ := s
  cases arguments with
  | nil =>
    rw [Segment.render]
    exact h.1.isWord.begins
  | cons first rest =>
    rw [Segment.render, String.append_assoc, String.append_assoc]
    exact h.1.isWord.begins.append _

theorem TypeRef.begins_render {t : TypeRef} (h : t.IsWritten) : Begins isIdentifierStart t.render := by
  cases t with
  | basic name dimensions =>
    rw [TypeRef.render]
    exact Begins.append (IsWordOf.isWord h).begins _
  | named segments dimensions =>
    rw [TypeRef.render]
    cases segments with
    | nil => exact absurd rfl h.1
    | cons s segments =>
      rw [Segment.renderAll]
      exact ((Segment.begins_render h.2.1).intercalate _ _).append _

/-- Whether a character begins a type argument. -/
def beginsArgument (c : Char) : Bool := isIdentifierStart c || c == '?'

theorem TypeArgument.begins_render {a : TypeArgument} (h : a.IsWritten) :
    Begins beginsArgument a.render := by
  cases a with
  | wildcard => exact ⟨'?', [], rfl, rfl⟩
  | bounded bound type =>
    rw [TypeArgument.render, String.append_assoc, String.append_assoc]
    exact Begins.append ⟨'?', [' '], rfl, rfl⟩ _
  | exact type =>
    rw [TypeArgument.render]
    exact (TypeRef.begins_render h.2).mono fun c hc => by rw [beginsArgument, hc, Bool.true_or]

/-! ### How texts are written -/

theorem renderDimensions_succ (count : Nat) :
    renderDimensions (count + 1) = "[" ++ ("]" ++ renderDimensions count) := by
  apply String.toList_injective
  simp [renderDimensions, List.replicate_succ]

theorem dimensionLexemes_succ (count : Nat) : dimensionLexemes (count + 1) =
    (.separator, "[") :: (.separator, "]") :: dimensionLexemes count := by
  simp [dimensionLexemes, List.replicate_succ]

theorem fronts_renderDimensions (count : Nat) :
    Fronts (renderDimensions count) (dimensionLexemes count) := by
  induction count with
  | zero => exact fronts_empty
  | succ count ih =>
    rw [renderDimensions_succ, dimensionLexemes_succ]
    exact (ih.mark (by decide)).mark (by decide)

/-- Array dimensions may follow whatever is written. -/
theorem Token.Fronts.dimensions {text : String} {lexemes : List Lexeme} (h : Fronts text lexemes)
    (count : Nat) :
    Fronts (text ++ renderDimensions count) (lexemes ++ dimensionLexemes count) := by
  cases count with
  | zero =>
    rw [show text ++ renderDimensions 0 = text from String.append_empty]
    rw [show lexemes ++ dimensionLexemes 0 = lexemes from List.append_nil lexemes]
    exact h
  | succ count =>
    refine h.append (fronts_renderDimensions (count + 1)) ?_
    rw [renderDimensions_succ]
    exact Begins.append ⟨'[', [], rfl, by decide⟩ _

/-- What the separators of types stand in front of. -/
theorem fronts_point {text : String} {lexemes : List Lexeme} (hbegins : Begins isIdentifierStart text)
    (h : Fronts text lexemes) : Fronts ("." ++ text) ((.separator, ".") :: lexemes) :=
  h.point hbegins

theorem not_blank_of_start {c : Char} (h : isIdentifierStart c = true) :
    (!Text.isBlank c) = true := by
  rw [isBlank_eq_false_of_start h]
  rfl

theorem not_blank_of_beginsArgument {c : Char} (h : beginsArgument c = true) :
    (!Text.isBlank c) = true := by
  rw [beginsArgument, Bool.or_eq_true, beq_iff_eq] at h
  rcases h with h | rfl
  · exact not_blank_of_start h
  · decide

theorem ne_angle_of_beginsArgument {c : Char} (h : beginsArgument c = true) :
    decide (c ≠ '<') = true := by
  rw [decide_eq_true_eq]
  rintro rfl
  exact absurd h (by decide)

/-- A comma and a space stand in front of a type argument. -/
theorem fronts_comma {test : Char → Bool} (htest : ∀ c, test c = true → (!Text.isBlank c) = true)
    {text : String} {lexemes : List Lexeme} (hbegins : Begins test text) (h : Fronts text lexemes) :
    Fronts (", " ++ text) ((.separator, ",") :: lexemes) := by
  have hcomma : ((.separator, ",") : Lexeme) ∈ headingMarks := by decide
  have hmark := (h.space (hbegins.mono htest)).mark hcomma
  rwa [← String.append_assoc] at hmark

/-- The words of bounds are words. -/
theorem Bound.isWordOf (bound : Bound) : IsWordOf .keyword bound.word := by
  cases bound with
  | upper => exact isWordOf_of_all (by decide) (by decide) (by decide)
  | lower => exact isWordOf_of_all (by decide) (by decide) (by decide)

mutual

/-- **The standard form of a type is written with its tokens.** -/
theorem TypeRef.fronts_render : (t : TypeRef) → t.IsWritten → Fronts t.render t.lexemes
  | .basic name count, h => by
    rw [TypeRef.render, TypeRef.lexemes]
    exact (fronts_word h).dimensions count
  | .named segments count, h => by
    rw [TypeRef.render, TypeRef.lexemes]
    refine Fronts.dimensions ?_ count
    rw [Segment.renderAll_eq, Segment.lexemesAll_eq]
    exact fronts_intercalate ⟨'.', [], rfl, by decide⟩ fronts_point h.1
      (Segment.fronts_renderAll segments h.2)

theorem Segment.fronts_render : (s : Segment) → s.IsWritten → Fronts s.render s.lexemes
  | .mk name [], h => by
    rw [Segment.render, Segment.lexemes]
    exact fronts_word h.1
  | .mk name (first :: rest), h => by
    have hlist : Fronts (", ".intercalate ((first :: rest).map TypeArgument.render))
        ([(.separator, ",")].intercalate ((first :: rest).map TypeArgument.lexemes)) :=
      fronts_intercalate ⟨',', [' '], rfl, by decide⟩
        (fronts_comma fun _ => not_blank_of_beginsArgument) (List.cons_ne_nil first rest)
        (TypeArgument.fronts_renderAll (first :: rest) h.2)
    have hbegins := ((TypeArgument.begins_render h.2.1).intercalate ", "
      (rest.map TypeArgument.render)).append ">"
    have hclosed := hlist.append (fronts_mark (show (.operator, ">") ∈ headingMarks by decide))
      ⟨'>', [], rfl, by decide⟩
    have hangle := hclosed.angle (hbegins.mono fun _ => ne_angle_of_beginsArgument)
    rw [Segment.render, Segment.lexemes, TypeArgument.renderAll_eq, TypeArgument.lexemesAll_eq,
      String.append_assoc, String.append_assoc]
    exact (fronts_word h.1).append hangle (Begins.append ⟨'<', [], rfl, by decide⟩ _)

theorem Segment.fronts_renderAll : (segments : List Segment) → Segment.AreWritten segments →
    ∀ s ∈ segments, Begins isIdentifierStart s.render ∧ Fronts s.render s.lexemes
  | [], _ => nofun
  | s :: segments, h => by
    rw [List.forall_mem_cons]
    exact ⟨⟨Segment.begins_render h.1, Segment.fronts_render s h.1⟩,
      Segment.fronts_renderAll segments h.2⟩

theorem TypeArgument.fronts_render : (a : TypeArgument) → a.IsWritten → Fronts a.render a.lexemes
  | .wildcard, _ => by
    rw [TypeArgument.render, TypeArgument.lexemes]
    exact fronts_mark (by decide)
  | .bounded bound type, h => by
    have hquestion : ((.operator, "?") : Lexeme) ∈ headingMarks := by decide
    have htype := (TypeRef.fronts_render type h.2).space
      ((TypeRef.begins_render h.2).mono fun _ => not_blank_of_start)
    have hword := (fronts_word bound.isWordOf).append htype (Begins.append ⟨' ', [], rfl, by decide⟩ _)
    have hspace := hword.space
      ((bound.isWordOf.isWord.begins.append _).mono fun _ => not_blank_of_start)
    rw [TypeArgument.render, TypeArgument.lexemes, String.append_assoc, String.append_assoc]
    have hmark := hspace.mark hquestion
    rwa [← String.append_assoc] at hmark
  | .exact type, h => by
    rw [TypeArgument.render, TypeArgument.lexemes]
    exact TypeRef.fronts_render type h.2

theorem TypeArgument.fronts_renderAll : (arguments : List TypeArgument) →
    TypeArgument.AreWritten arguments →
      ∀ a ∈ arguments, Begins beginsArgument a.render ∧ Fronts a.render a.lexemes
  | [], _ => nofun
  | a :: arguments, h => by
    rw [List.forall_mem_cons]
    exact ⟨⟨TypeArgument.begins_render h.1, TypeArgument.fronts_render a h.1⟩,
      TypeArgument.fronts_renderAll arguments h.2⟩

end

end SourceDoc
