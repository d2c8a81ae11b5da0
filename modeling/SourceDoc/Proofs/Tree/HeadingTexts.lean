import SourceDoc.Node.OfTree
import SourceDoc.Proofs.Grammar.Written

/-!
# The texts of method headings

A heading holds what a signature tells of a method.  Its standard form (`Heading.text`) is written
with the tokens `Heading.lexemes` (`Heading.fronts_text`), all of which are words or marks
(`Heading.isWordOrMark`).
-/

namespace SourceDoc.Tree

open SourceDoc.Token SourceDoc.Grammar.Parser

/-! ### Headings -/

/-- What a signature tells of a method. -/
structure Heading where
  /-- The modifiers. -/
  modifiers : List String
  /-- The names of the type parameters. -/
  typeParameters : List String
  /-- The type of the result. -/
  result : Option TypeRef
  /-- The name. -/
  name : String
  /-- The parameters. -/
  parameters : List Parameter
  /-- The types that may be thrown, each as the names of its qualification. -/
  thrown : List (List String)

/-- A heading made of words. -/
structure Heading.IsWritten (h : Heading) : Prop where
  /-- Its modifiers are modifiers. -/
  modifiers : ∀ m ∈ h.modifiers, IsWordOf .modifier m
  /-- Its type parameters are identifiers. -/
  typeParameters : ∀ n ∈ h.typeParameters, IsWordOf .identifier n
  /-- The type of its result is made of words. -/
  result : ∀ t ∈ h.result, t.IsWritten
  /-- Its name is an identifier. -/
  name : IsWordOf .identifier h.name
  /-- Its parameters are made of words. -/
  parameters : ∀ p ∈ h.parameters, p.IsWritten
  /-- Behind a parameter that takes any number of arguments there is none. -/
  varargs : h.parameters.IsChain fun p _ => p.varargs = false
  /-- What may be thrown is named by identifiers. -/
  thrown : ∀ names ∈ h.thrown, names ≠ [] ∧ ∀ n ∈ names, IsWordOf .identifier n

/-- A parameter as written in a heading. -/
def Parameter.render (p : Parameter) : String :=
  (if p.isFinal then "final " else "") ++ p.type.render ++ (if p.varargs then "..." else "") ++
    " " ++ p.name

/-- The tokens of a parameter. -/
def Parameter.lexemes (p : Parameter) : List Lexeme :=
  (if p.isFinal then [(.modifier, "final")] else []) ++ (p.type.lexemes ++
    ((if p.varargs then [(.operator, "...")] else []) ++ [(.identifier, p.name)]))

/-- The tokens of things with commas between them. -/
def commaLexemes (items : List (List Lexeme)) : List Lexeme := [(.separator, ",")].intercalate items

/-- The tokens of a list of identifiers. -/
def wordLexemes (separator : String) (names : List String) : List Lexeme :=
  [(.separator, separator)].intercalate (names.map fun n => [(.identifier, n)])

/-- The tokens of a result. -/
def resultLexemes : Option TypeRef → List Lexeme
  | none => [(.keyword, "void")]
  | some t => t.lexemes

/-- The tokens of type parameters. -/
def genericLexemes (names : List String) : List Lexeme :=
  if names.isEmpty then []
  else (.operator, "<") :: (wordLexemes "," names ++ [(.operator, ">")])

/-- The type parameters as written, with their tokens; nothing, if there are none. -/
def genericParts (names : List String) : List (String × List Lexeme) :=
  if names.isEmpty then [] else [("<" ++ ", ".intercalate names ++ ">", genericLexemes names)]

/-- What may be thrown, as written. -/
def throwsText (thrown : List (List String)) : String :=
  if thrown.isEmpty then "" else " throws " ++ ", ".intercalate (thrown.map (".".intercalate ·))

/-- The tokens of what may be thrown. -/
def throwsLexemes (thrown : List (List String)) : List Lexeme :=
  if thrown.isEmpty then []
  else (.keyword, "throws") :: commaLexemes (thrown.map (wordLexemes "."))

/-- The parts of a heading between which spaces are written, with their tokens. -/
def Heading.parts (h : Heading) : List (String × List Lexeme) :=
  h.modifiers.map (fun m => (m, [(.modifier, m)])) ++ genericParts h.typeParameters ++
    [(resultText h.result, resultLexemes h.result),
      (h.name ++ "(" ++ ", ".intercalate (h.parameters.map Parameter.render) ++ ")",
        (.identifier, h.name) :: (.separator, "(") ::
          (commaLexemes (h.parameters.map Parameter.lexemes) ++ [(.separator, ")")]))]

/-- The standard form of a heading. -/
def Heading.text (h : Heading) : String :=
  " ".intercalate (h.parts.map Prod.fst) ++ throwsText h.thrown

/-- The tokens of a heading. -/
def Heading.lexemes (h : Heading) : List Lexeme :=
  h.parts.flatMap Prod.snd ++ throwsLexemes h.thrown

theorem flatMap_genericParts (names : List String) :
    (genericParts names).flatMap Prod.snd = genericLexemes names := by
  cases names with
  | nil => rfl
  | cons n names => simp [genericParts]

/-- The tokens of a heading, one part behind the other. -/
theorem Heading.lexemes_eq (h : Heading) : h.lexemes =
    h.modifiers.map (fun m => (.modifier, m)) ++ (genericLexemes h.typeParameters ++
      (resultLexemes h.result ++ (.identifier, h.name) :: (.separator, "(") ::
        (commaLexemes (h.parameters.map Parameter.lexemes) ++
          (.separator, ")") :: throwsLexemes h.thrown))) := by
  have hmodifiers : (h.modifiers.map fun m => (m, [((.modifier, m) : Lexeme)])).flatMap Prod.snd =
      h.modifiers.map fun m => (.modifier, m) := by
    rw [List.flatMap_map, ← List.map_eq_flatMap]
  rw [Heading.lexemes, Heading.parts, List.flatMap_append, List.flatMap_append, hmodifiers,
    flatMap_genericParts]
  simp

/-! ### Lists -/

/-- Texts with spaces between them. -/
theorem fronts_spaced {α : Type} {items : List α} {text : α → String} {lexemes : α → List Lexeme}
    (h : ∀ item ∈ items, Begins (!Text.isBlank ·) (text item) ∧ Fronts (text item) (lexemes item)) :
    Fronts (" ".intercalate (items.map text)) (items.flatMap lexemes) := by
  induction items with
  | nil => exact fronts_empty
  | cons item items ih =>
    have hitem := (h item List.mem_cons_self).2
    cases items with
    | nil =>
      rw [List.map_singleton, String.intercalate_singleton, List.flatMap_singleton]
      exact hitem
    | cons next items =>
      have hrest := ih fun i hi => h i (List.mem_cons_of_mem item hi)
      have hnext := (h next (List.mem_cons_of_mem item List.mem_cons_self)).1
      have hbegins := hnext.intercalate " " (items.map text)
      rw [List.map_cons] at hrest
      rw [List.map_cons, List.map_cons, String.intercalate_cons_cons, String.append_assoc,
        List.flatMap_cons]
      exact hitem.append (hrest.space hbegins) (Begins.append ⟨' ', [], rfl, by decide⟩ _)

/-- Texts with commas between them. -/
theorem fronts_commas {α : Type} {items : List α} {text : α → String} {lexemes : α → List Lexeme}
    (h : ∀ item ∈ items, Begins isIdentifierStart (text item) ∧ Fronts (text item) (lexemes item)) :
    Fronts (", ".intercalate (items.map text)) (commaLexemes (items.map lexemes)) := by
  cases items with
  | nil => exact fronts_empty
  | cons item items =>
    exact fronts_intercalate ⟨',', [' '], rfl, by decide⟩ (fronts_comma fun _ => not_blank_of_start)
      (List.cons_ne_nil item items) h

theorem begins_and_fronts_word {name : String} (h : IsWordOf .identifier name) :
    Begins isIdentifierStart name ∧ Fronts name [(.identifier, name)] :=
  ⟨h.isWord.begins, fronts_word h⟩

theorem fronts_commaNames {names : List String} (h : ∀ n ∈ names, IsWordOf .identifier n) :
    Fronts (", ".intercalate names) (wordLexemes "," names) := by
  have hfronts : Fronts (", ".intercalate (names.map id)) (wordLexemes "," names) :=
    fronts_commas fun n hn => begins_and_fronts_word (h n hn)
  rwa [List.map_id] at hfronts

/-- A qualified name. -/
theorem fronts_pointNames {names : List String} (hne : names ≠ [])
    (h : ∀ n ∈ names, IsWordOf .identifier n) :
    Fronts (".".intercalate names) (wordLexemes "." names) := by
  have hfronts : Fronts (".".intercalate (names.map id)) (wordLexemes "." names) :=
    fronts_intercalate ⟨'.', [], rfl, by decide⟩ fronts_point hne fun n hn =>
      begins_and_fronts_word (h n hn)
  rwa [List.map_id] at hfronts

theorem begins_pointNames {names : List String} (hne : names ≠ [])
    (h : ∀ n ∈ names, IsWordOf .identifier n) :
    Begins isIdentifierStart (".".intercalate names) := by
  cases names with
  | nil => exact absurd rfl hne
  | cons n names => exact (h n List.mem_cons_self).isWord.begins.intercalate "." names

/-! ### Parts of headings -/

theorem isWordOf_final : IsWordOf .modifier "final" :=
  isWordOf_of_all (by decide) (by decide) (by decide)

theorem isWordOf_void : IsWordOf .keyword "void" :=
  isWordOf_of_all (by decide) (by decide) (by decide)

theorem isWordOf_throws : IsWordOf .keyword "throws" :=
  isWordOf_of_all (by decide) (by decide) (by decide)

/-- A space stands behind a word and in front of something else. -/
theorem fronts_wordSpace {cls : TokenClass} {word text : String} {lexemes : List Lexeme}
    (h : Fronts text lexemes) (hword : IsWordOf cls word)
    (hbegins : Begins (!Text.isBlank ·) text) :
    Fronts (word ++ (" " ++ text)) ((cls, word) :: lexemes) :=
  (fronts_word hword).append (h.space hbegins) (Begins.append ⟨' ', [], rfl, by decide⟩ _)

theorem Parameter.begins_render {p : Parameter} (h : p.IsWritten) :
    Begins isIdentifierStart p.render := by
  rw [Parameter.render]
  cases p.isFinal with
  | true => exact (((Begins.append ⟨'f', _, rfl, by decide⟩ _).append _).append _).append _
  | false =>
    rw [if_neg Bool.false_ne_true, String.empty_append]
    exact (((TypeRef.begins_render h.1).append _).append _).append _

theorem Parameter.fronts_render {p : Parameter} (h : p.IsWritten) : Fronts p.render p.lexemes := by
  have hname : Fronts (" " ++ p.name) [(.identifier, p.name)] :=
    (fronts_word h.2).space (h.2.isWord.begins.mono fun _ => not_blank_of_start)
  have hdots : Fronts ((if p.varargs then "..." else "") ++ (" " ++ p.name))
      ((if p.varargs then [(.operator, "...")] else []) ++ [(.identifier, p.name)]) ∧
      Begins endsWord ((if p.varargs then "..." else "") ++ (" " ++ p.name)) := by
    cases p.varargs with
    | true => exact ⟨hname.mark (by decide), Begins.append ⟨'.', _, rfl, by decide⟩ _⟩
    | false =>
      rw [if_neg Bool.false_ne_true, if_neg Bool.false_ne_true, String.empty_append]
      exact ⟨hname, Begins.append ⟨' ', [], rfl, by decide⟩ _⟩
  have htype := (p.type.fronts_render h.1).append hdots.1 hdots.2
  have hbegins := (TypeRef.begins_render h.1).append
    ((if p.varargs then "..." else "") ++ (" " ++ p.name))
  rw [Parameter.render, Parameter.lexemes]
  simp only [String.append_assoc]
  cases p.isFinal with
  | true =>
    have hfinal := fronts_wordSpace htype isWordOf_final (hbegins.mono fun _ => not_blank_of_start)
    rw [← String.append_assoc] at hfinal
    rw [if_pos rfl, if_pos rfl]
    exact hfinal
  | false =>
    rw [if_neg Bool.false_ne_true, if_neg Bool.false_ne_true, String.empty_append]
    exact htype

theorem fronts_result {result : Option TypeRef} (h : ∀ t ∈ result, t.IsWritten) :
    Begins isIdentifierStart (resultText result) ∧
      Fronts (resultText result) (resultLexemes result) := by
  cases result with
  | none => exact ⟨isWordOf_void.isWord.begins, fronts_word isWordOf_void⟩
  | some t => exact ⟨TypeRef.begins_render (h t rfl), t.fronts_render (h t rfl)⟩

theorem fronts_generics {names : List String} (h : ∀ n ∈ names, IsWordOf .identifier n) :
    ∀ part ∈ genericParts names, Begins (!Text.isBlank ·) part.1 ∧ Fronts part.1 part.2 := by
  cases names with
  | nil => exact nofun
  | cons n names =>
    intro part hpart
    obtain rfl := List.mem_singleton.1 hpart
    have hclosed := (fronts_commaNames h).append
      (fronts_mark (show (.operator, ">") ∈ headingMarks by decide)) ⟨'>', [], rfl, by decide⟩
    have hbegins := ((h n List.mem_cons_self).isWord.begins.intercalate ", " names).append ">"
    have hangle := hclosed.angle (hbegins.mono fun c hc => by
      rw [decide_eq_true_eq]
      rintro rfl
      exact absurd hc (by decide))
    rw [← String.append_assoc] at hangle
    exact ⟨(Begins.append ⟨'<', [], rfl, by decide⟩ _).append _, hangle⟩

theorem fronts_parameters {name : String} (hname : IsWordOf .identifier name)
    {parameters : List Parameter} (h : ∀ p ∈ parameters, p.IsWritten) :
    Fronts (name ++ "(" ++ ", ".intercalate (parameters.map Parameter.render) ++ ")")
      ((.identifier, name) :: (.separator, "(") ::
        (commaLexemes (parameters.map Parameter.lexemes) ++ [(.separator, ")")])) := by
  have hlist := fronts_commas fun p hp =>
    ⟨Parameter.begins_render (h p hp), Parameter.fronts_render (h p hp)⟩
  have hclosed := (hlist.append (fronts_mark (show (.separator, ")") ∈ headingMarks by decide))
    ⟨')', [], rfl, by decide⟩).mark (show (.separator, "(") ∈ headingMarks by decide)
  rw [String.append_assoc, String.append_assoc]
  exact (fronts_word hname).append hclosed (Begins.append ⟨'(', [], rfl, by decide⟩ _)

/-! ### Headings as a whole -/

theorem Heading.fronts_parts {h : Heading} (hh : h.IsWritten) :
    ∀ part ∈ h.parts, Begins (!Text.isBlank ·) part.1 ∧ Fronts part.1 part.2 := by
  intro part hpart
  rw [Heading.parts, List.mem_append, List.mem_append] at hpart
  rcases hpart with (hpart | hpart) | hpart
  · obtain ⟨m, hm, rfl⟩ := List.mem_map.1 hpart
    have hword := hh.modifiers m hm
    exact ⟨hword.isWord.begins.mono fun _ => not_blank_of_start, fronts_word hword⟩
  · exact fronts_generics hh.typeParameters part hpart
  · rcases List.mem_cons.1 hpart with rfl | hpart
    · obtain ⟨hbegins, hfronts⟩ := fronts_result hh.result
      exact ⟨hbegins.mono fun _ => not_blank_of_start, hfronts⟩
    · obtain rfl := List.mem_singleton.1 hpart
      have hbegins := ((hh.name.isWord.begins.append "(").append
        (", ".intercalate (h.parameters.map Parameter.render))).append ")"
      exact ⟨hbegins.mono fun _ => not_blank_of_start, fronts_parameters hh.name hh.parameters⟩

theorem Heading.begins_text {h : Heading} (hh : h.IsWritten) : Begins (!Text.isBlank ·) h.text := by
  have hparts := h.fronts_parts hh
  rw [Heading.text]
  cases hall : h.parts with
  | nil =>
    rw [Heading.parts, List.append_eq_nil_iff] at hall
    cases hall.2
  | cons part parts =>
    rw [hall] at hparts
    exact ((hparts part List.mem_cons_self).1.intercalate " " (parts.map Prod.fst)).append _

/-- **The standard form of a heading is written with its tokens.** -/
theorem Heading.fronts_text {h : Heading} (hh : h.IsWritten) : Fronts h.text h.lexemes := by
  have hparts := fronts_spaced (h.fronts_parts hh)
  rw [Heading.text, Heading.lexemes, throwsText, throwsLexemes]
  cases hthrown : h.thrown with
  | nil =>
    rw [if_pos List.isEmpty_nil, if_pos List.isEmpty_nil, String.append_empty, List.append_nil]
    exact hparts
  | cons names thrown =>
    have hwritten := hh.thrown
    rw [hthrown] at hwritten
    have hlist : Fronts (", ".intercalate ((names :: thrown).map (".".intercalate ·)))
        (commaLexemes ((names :: thrown).map (wordLexemes "."))) :=
      fronts_commas fun names hnames =>
        ⟨begins_pointNames (hwritten names hnames).1 (hwritten names hnames).2,
          fronts_pointNames (hwritten names hnames).1 (hwritten names hnames).2⟩
    have hbegins := (begins_pointNames (hwritten names List.mem_cons_self).1
      (hwritten names List.mem_cons_self).2).intercalate ", " (thrown.map (".".intercalate ·))
    have hthrows :=
      fronts_wordSpace hlist isWordOf_throws (hbegins.mono fun _ => not_blank_of_start)
    have hspace := hthrows.space
      ((isWordOf_throws.isWord.begins.append _).mono fun _ => not_blank_of_start)
    rw [← String.append_assoc, ← String.append_assoc] at hspace
    exact hparts.append hspace (Begins.append ⟨' ', _, rfl, by decide⟩ _)

/-! ### Words and marks -/

/-- A token that is a word or one of these marks. -/
def IsWordOrMark (marks : List String) (l : Lexeme) : Prop := IsWord l.2 ∨ l.2 ∈ marks

/-- The marks of types. -/
def typeMarks : List String := ["<", ">", ",", "?", ".", "[", "]"]

/-- The marks of headings. -/
def headingTexts : List String := typeMarks ++ ["(", ")", "..."]

theorem IsWordOrMark.heading {l : Lexeme} (h : IsWordOrMark typeMarks l) :
    IsWordOrMark headingTexts l :=
  h.imp id (List.mem_append_left _)

/-- What begins no word and is no mark is no text of a token. -/
theorem IsWordOrMark.notMem {marks texts : List String} {l : Lexeme} (h : IsWordOrMark marks l)
    (hwords : ∀ text ∈ texts, text.toList.head?.all (!isIdentifierStart ·) = true)
    (hmarks : ∀ text ∈ texts, text ∉ marks) : l.2 ∉ texts := by
  intro hmem
  rcases h with ⟨c, rest, hchars, hc, -⟩ | hmark
  · have hnone := hwords l.2 hmem
    rw [hchars, List.head?_cons, Option.all_some, hc] at hnone
    cases hnone
  · exact hmarks l.2 hmem hmark

theorem isWordOrMark_dimensions (count : Nat) :
    ∀ l ∈ dimensionLexemes count, IsWordOrMark typeMarks l := by
  induction count with
  | zero => exact nofun
  | succ count ih =>
    rw [dimensionLexemes_succ]
    exact List.forall_mem_cons.2 ⟨.inr (by decide), List.forall_mem_cons.2 ⟨.inr (by decide), ih⟩⟩

end SourceDoc.Tree

namespace SourceDoc

open SourceDoc.Token SourceDoc.Tree

mutual

/-- The tokens of a type are words and marks of types. -/
theorem TypeRef.isWordOrMark : (t : TypeRef) → t.IsWritten →
    ∀ l ∈ t.lexemes, IsWordOrMark typeMarks l
  | .basic name count, h => by
    rw [TypeRef.lexemes]
    exact List.forall_mem_cons.2 ⟨.inl (IsWordOf.isWord h), isWordOrMark_dimensions count⟩
  | .named segments count, h => by
    rw [TypeRef.lexemes]
    exact List.forall_mem_append.2 ⟨forall_mem_intercalate (.inr (by decide))
      (Segment.isWordOrMark_all segments h.2), isWordOrMark_dimensions count⟩

theorem Segment.isWordOrMark : (s : Segment) → s.IsWritten →
    ∀ l ∈ s.lexemes, IsWordOrMark typeMarks l
  | .mk name [], h => by
    rw [Segment.lexemes]
    exact List.forall_mem_singleton.2 (.inl h.1.isWord)
  | .mk name (first :: rest), h => by
    rw [Segment.lexemes]
    refine List.forall_mem_cons.2 ⟨.inl h.1.isWord, List.forall_mem_cons.2 ⟨.inr (by decide), ?_⟩⟩
    refine List.forall_mem_append.2 ⟨forall_mem_intercalate (.inr (by decide)) ?_,
      List.forall_mem_singleton.2 (.inr (by decide))⟩
    exact List.forall_mem_cons.2 ⟨TypeArgument.isWordOrMark first h.2.1,
      TypeArgument.isWordOrMark_all rest h.2.2⟩

theorem TypeArgument.isWordOrMark : (a : TypeArgument) → a.IsWritten →
    ∀ l ∈ a.lexemes, IsWordOrMark typeMarks l
  | .wildcard, _ => by
    rw [TypeArgument.lexemes]
    exact List.forall_mem_singleton.2 (.inr (by decide))
  | .bounded bound type, h => by
    rw [TypeArgument.lexemes]
    exact List.forall_mem_cons.2 ⟨.inr (by decide), List.forall_mem_cons.2
      ⟨.inl bound.isWordOf.isWord, TypeRef.isWordOrMark type h.2⟩⟩
  | .exact type, h => by
    rw [TypeArgument.lexemes]
    exact TypeRef.isWordOrMark type h.2

theorem Segment.isWordOrMark_all : (segments : List Segment) → Segment.AreWritten segments →
    ∀ ls ∈ Segment.lexemesAll segments, ∀ l ∈ ls, IsWordOrMark typeMarks l
  | [], _ => nofun
  | s :: segments, h => by
    rw [Segment.lexemesAll]
    exact List.forall_mem_cons.2 ⟨Segment.isWordOrMark s h.1, Segment.isWordOrMark_all segments h.2⟩

theorem TypeArgument.isWordOrMark_all : (arguments : List TypeArgument) →
    TypeArgument.AreWritten arguments →
      ∀ ls ∈ TypeArgument.lexemesAll arguments, ∀ l ∈ ls, IsWordOrMark typeMarks l
  | [], _ => nofun
  | a :: arguments, h => by
    rw [TypeArgument.lexemesAll]
    exact List.forall_mem_cons.2 ⟨TypeArgument.isWordOrMark a h.1,
      TypeArgument.isWordOrMark_all arguments h.2⟩

end

end SourceDoc

namespace SourceDoc.Tree

open SourceDoc.Token

theorem isWordOrMark_result {result : Option TypeRef} (h : ∀ t ∈ result, t.IsWritten) :
    ∀ l ∈ resultLexemes result, IsWordOrMark typeMarks l := by
  cases result with
  | none => exact List.forall_mem_singleton.2 (.inl isWordOf_void.isWord)
  | some t => exact t.isWordOrMark (h t rfl)

theorem isWordOrMark_words {separator : String} (hseparator : separator ∈ typeMarks)
    {names : List String} (h : ∀ n ∈ names, IsWordOf .identifier n) :
    ∀ l ∈ wordLexemes separator names, IsWordOrMark headingTexts l := by
  refine forall_mem_intercalate (IsWordOrMark.heading (.inr hseparator)) fun part hpart => ?_
  obtain ⟨n, hn, rfl⟩ := List.mem_map.1 hpart
  exact List.forall_mem_singleton.2 (.inl (h n hn).isWord)

theorem Parameter.isWordOrMark {p : Parameter} (h : p.IsWritten) :
    ∀ l ∈ p.lexemes, IsWordOrMark headingTexts l := by
  have htype : ∀ l ∈ p.type.lexemes, IsWordOrMark headingTexts l :=
    fun l hl => (p.type.isWordOrMark h.1 l hl).heading
  have hname : IsWordOrMark headingTexts (.identifier, p.name) := .inl h.2.isWord
  have hfinal : IsWordOrMark headingTexts (.modifier, "final") := .inl isWordOf_final.isWord
  have hdots : IsWordOrMark headingTexts (.operator, "...") := .inr (by decide)
  rw [Parameter.lexemes]
  simp only [List.forall_mem_append, List.forall_mem_singleton]
  refine ⟨?_, htype, ?_, hname⟩
  · cases p.isFinal with
    | true => exact List.forall_mem_singleton.2 hfinal
    | false => exact nofun
  · cases p.varargs with
    | true => exact List.forall_mem_singleton.2 hdots
    | false => exact nofun

/-- The tokens of a heading are words and marks of headings. -/
theorem Heading.isWordOrMark {h : Heading} (hh : h.IsWritten) :
    ∀ l ∈ h.lexemes, IsWordOrMark headingTexts l := by
  have hcomma : IsWordOrMark headingTexts (.separator, ",") := .inr (by decide)
  rw [Heading.lexemes_eq]
  simp only [List.forall_mem_append, List.forall_mem_cons]
  refine ⟨?_, ?_, ?_, .inl hh.name.isWord, .inr (by decide), ?_, .inr (by decide), ?_⟩
  · intro l hl
    obtain ⟨m, hm, rfl⟩ := List.mem_map.1 hl
    exact .inl (hh.modifiers m hm).isWord
  · rw [genericLexemes]
    split
    · exact nofun
    · refine List.forall_mem_cons.2 ⟨.inr (by decide), List.forall_mem_append.2 ⟨?_, ?_⟩⟩
      · exact isWordOrMark_words (by decide) hh.typeParameters
      · exact List.forall_mem_singleton.2 (.inr (by decide))
  · exact fun l hl => (isWordOrMark_result hh.result l hl).heading
  · refine forall_mem_intercalate hcomma fun part hpart => ?_
    obtain ⟨p, hp, rfl⟩ := List.mem_map.1 hpart
    exact Parameter.isWordOrMark (hh.parameters p hp)
  · rw [throwsLexemes]
    split
    · exact nofun
    · refine List.forall_mem_cons.2 ⟨.inl isWordOf_throws.isWord, ?_⟩
      refine forall_mem_intercalate hcomma fun part hpart => ?_
      obtain ⟨names, hnames, rfl⟩ := List.mem_map.1 hpart
      exact isWordOrMark_words (by decide) (hh.thrown names hnames).2

end SourceDoc.Tree
