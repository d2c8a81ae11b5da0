import SourceDoc.Proofs.Token.Words

/-!
# Texts of headings

A heading is written with words, spaces and marks.  `Spells text lexemes` says which tokens such a
text is written with, and that their texts do not run into each other: a word ends before the next,
a point stands in front of a word, and no angle bracket opens right behind another.  Cutting the text
into tokens finds just these (`Spells.ofSource`).
-/

namespace SourceDoc.Token

open SourceDoc.Text

/-- The class of a token and its text. -/
abbrev Lexeme := TokenClass × String

/-- What a token is apart from its place. -/
def toLexeme (token : Token) : Lexeme := (token.cls, token.value)

/-- The marks of headings that are tokens of their own before whatever may follow. -/
def headingMarks : List Lexeme :=
  [(.separator, "("), (.separator, ")"), (.separator, "["), (.separator, "]"), (.separator, "\x7b"),
    (.separator, "\x7d"), (.separator, ","), (.separator, ";"), (.operator, "?"), (.operator, ">"),
    (.operator, "...")]

/-- A text that is written with the given tokens. -/
inductive Spells : List Char → List Lexeme → Prop where
  | nil : Spells [] []
  | space {text : List Char} {lexemes : List Lexeme}
      (hnext : ∀ c ∈ text.head?, isBlank c = false) (h : Spells text lexemes) :
      Spells (' ' :: text) lexemes
  | word {word : String} {text : List Char} {lexemes : List Lexeme} (hword : IsWord word)
      (hend : ∀ c ∈ text.head?, isIdentifierPart c = false) (h : Spells text lexemes) :
      Spells (word.toList ++ text) ((classOfWord word, word) :: lexemes)
  | mark {mark : Lexeme} {text : List Char} {lexemes : List Lexeme} (hmark : mark ∈ headingMarks)
      (h : Spells text lexemes) : Spells (mark.2.toList ++ text) (mark :: lexemes)
  | point {c : Char} {text : List Char} {lexemes : List Lexeme} (hc : isIdentifierStart c = true)
      (h : Spells (c :: text) lexemes) : Spells ('.' :: c :: text) ((.separator, ".") :: lexemes)
  | angle {text : List Char} {lexemes : List Lexeme} (hnext : text.head? ≠ some '<')
      (h : Spells text lexemes) : Spells ('<' :: text) ((.operator, "<") :: lexemes)

/-! ### Characters of headings -/

/-- What is no part of a word and occurs in no mark does not occur in a heading. -/
theorem Spells.notMem {text : List Char} {lexemes : List Lexeme} (h : Spells text lexemes) {c : Char}
    (hpart : isIdentifierPart c = false)
    (hmarks : ∀ mark ∈ (headingMarks ++ [(.separator, "."), (.operator, "<"), (.separator, " ")] :
      List Lexeme), c ∉ mark.2.toList) : c ∉ text := by
  induction h with
  | nil => exact List.not_mem_nil
  | space _ _ ih =>
    have := hmarks (.separator, " ") (by decide)
    simp_all
  | word hword _ _ ih =>
    rw [List.mem_append, not_or]
    refine ⟨fun hmem => ?_, ih⟩
    rw [hword.isIdentifierPart c hmem] at hpart
    cases hpart
  | mark hmark _ ih =>
    rw [List.mem_append, not_or]
    exact ⟨hmarks _ (List.mem_append_left _ hmark), ih⟩
  | point _ _ ih =>
    have := hmarks (.separator, ".") (by decide)
    simp_all
  | angle _ _ ih =>
    have := hmarks (.operator, "<") (by decide)
    simp_all

/-! ### Operators -/

theorem char_injective : Function.Injective WideChar.char := fun _ _ h => WideChar.char.inj h

/-- The operator that a text begins with, if none that comes before it in the table begins the
text. -/
theorem operatorLength?_eq {text : List Char} {op : String} {before after : List String}
    (htable : operators = before ++ op :: after)
    (hbefore : ∀ o ∈ before, ¬ o.toList <+: text) (hop : op.toList <+: text) :
    operatorLength? (text.map .char) = some op.length := by
  have hfront (o : String) :
      (WideString.ofString o).toList.isPrefixOf (text.map .char) = true ↔ o.toList <+: text := by
    rw [List.isPrefixOf_iff_prefix, WideString.ofString]
    constructor
    · intro h
      obtain ⟨front, hfront, heq⟩ := List.prefix_map_iff.1 h
      rwa [char_injective.list_map heq]
    · exact fun h => h.map WideChar.char
  have hfind : operators.find?
      (fun o => (WideString.ofString o).toList.isPrefixOf (text.map .char)) = some op := by
    rw [List.find?_eq_some_iff_append]
    refine ⟨(hfront op).2 hop, before, after, htable, fun o ho => ?_⟩
    rw [Bool.not_eq_true', Bool.eq_false_iff, Ne, hfront]
    exact hbefore o ho
  rw [operatorLength?, hfind]
  rfl

/-- An operator of one character, if no longer one begins there. -/
theorem operatorLength?_one {c : Char} {rest : List Char} {before after : List String}
    (htable : operators = before ++ String.singleton c :: after)
    (hbefore : ∀ o ∈ before, ∀ more, o.toList = c :: more → ¬ more <+: rest) :
    operatorLength? ((c :: rest).map .char) = some 1 := by
  have hop : (String.singleton c).toList <+: c :: rest := by simp
  refine (operatorLength?_eq htable (fun o ho hfront => ?_) hop).trans
    (congrArg some String.length_singleton)
  have hne : ∀ o ∈ operators, o ≠ "" := by decide
  cases hchars : o.toList with
  | nil =>
    rw [String.toList_eq_nil_iff] at hchars
    exact hne o (by rw [htable]; exact List.mem_append_left _ ho) hchars
  | cons d more =>
    rw [hchars, List.cons_prefix_cons] at hfront
    obtain ⟨rfl, hfront⟩ := hfront
    exact hbefore o ho more hchars hfront

/-- A closing angle bracket goes together with nothing but an equals sign. -/
theorem operatorLength?_unangle {rest : List Char} (hequals : '=' ∉ rest) :
    operatorLength? (('>' :: rest).map .char) = some 1 := by
  have htable : operators = operators.takeWhile (· ≠ ">") ++ ">" :: ["="] := by decide
  have hlonger : ∀ o ∈ operators.takeWhile (· ≠ ">"), o.toList.head? = some '>' →
      '=' ∈ o.toList.tail := by decide
  refine operatorLength?_one htable fun o ho more hmore hfront => hequals ?_
  have hmem := hlonger o ho (by rw [hmore]; rfl)
  rw [hmore] at hmem
  exact hfront.subset hmem

/-- An opening angle bracket goes together with another one or an equals sign. -/
theorem operatorLength?_angle {rest : List Char} (hequals : '=' ∉ rest)
    (hnext : rest.head? ≠ some '<') : operatorLength? (('<' :: rest).map .char) = some 1 := by
  have htable : operators = operators.takeWhile (· ≠ "<") ++ "<" :: [">", "="] := by decide
  have hlonger : ∀ o ∈ operators.takeWhile (· ≠ "<"), o.toList.head? = some '<' →
      '=' ∈ o.toList.tail ∨ o.toList.tail.head? = some '<' := by decide
  refine operatorLength?_one htable fun o ho more hmore hfront => ?_
  have hmem := hlonger o ho (by rw [hmore]; rfl)
  rw [hmore] at hmem
  rcases hmem with hmem | hmem
  · exact hequals (hfront.subset hmem)
  · obtain ⟨tail, rfl⟩ := hfront
    rw [List.tail_cons] at hmem
    rw [List.head?_append, hmem] at hnext
    exact hnext rfl

/-- A question mark goes together with nothing. -/
theorem operatorLength?_question (rest : List Char) :
    operatorLength? (('?' :: rest).map .char) = some 1 := by
  have htable : operators = operators.takeWhile (· ≠ "?") ++ "?" :: ["~", "!", "<", ">", "="] := by
    decide
  have hother : ∀ o ∈ operators.takeWhile (· ≠ "?"), o.toList.head? ≠ some '?' := by decide
  refine operatorLength?_one htable fun o ho more hmore _ => hother o ho ?_
  rw [hmore]
  rfl

/-! ### Lexemes -/

theorem satisfies_char (test : Char → Bool) (c : Char) : (WideChar.char c).satisfies test = test c :=
  rfl

/-- A word that ends is a lexeme. -/
theorem lexeme_word {c : Char} {rest text : List Char} (hc : isIdentifierStart c = true)
    (hrest : ∀ d ∈ rest, isIdentifierPart d = true)
    (hend : ∀ d ∈ text.head?, isIdentifierPart d = false) :
    lexeme (.char c) ((rest ++ text).map .char) =
      .ok (classOfWord (String.ofList (c :: rest)), rest.length + 1) := by
  have hne : ∀ d ∈ ['.', '@', '\'', '"'], c ≠ d := by
    rintro d hd rfl
    exact notMem_of_start hc (by decide) hd
  have hseparator : isSeparator c = false :=
    Bool.eq_false_iff.2 fun hmem => notMem_of_start hc (by decide) (List.contains_iff_mem.1 hmem)
  have htake : ((rest ++ text).map WideChar.char).takeWhile (·.satisfies isIdentifierPart) =
      rest.map .char := by
    have hall : ∀ d ∈ rest.map WideChar.char, d.satisfies isIdentifierPart = true := by
      intro d hd
      obtain ⟨e, he, rfl⟩ := List.mem_map.1 hd
      exact hrest e he
    rw [List.map_append, List.takeWhile_append_of_pos hall]
    cases text with
    | nil => simp
    | cons d text =>
      have hd : ¬ (WideChar.char d).satisfies isIdentifierPart = true := by
        rw [WideChar.satisfies, hend d rfl]
        decide
      rw [List.map_cons, List.takeWhile_cons_of_neg hd, List.append_nil]
  have hvalue : (WideString.ofList (.char c :: rest.map .char)).toString =
      String.ofList (c :: rest) := by
    simp [WideString.toString, WideChar.toChar, Function.comp_def]
  simp only [lexeme, htake, hvalue, WideChar.char.injEq, hne '.' (by decide), hne '@' (by decide),
    hne '\'' (by decide), hne '"' (by decide), satisfies_char, hseparator,
    char_isDigit_eq_false_of_start hc, hc, decide_false, Bool.false_and, Bool.or_self,
    Bool.false_eq_true, if_false, if_true, List.length_cons, List.length_map]

/-- Brackets, commas and semicolons are lexemes. -/
theorem lexeme_mark {c : Char} (hc : c ∈ Token.marks) (rest : List WideChar) :
    lexeme (.char c) rest = .ok (.separator, 1) := by
  simp only [Token.marks, List.mem_cons, List.not_mem_nil, or_false] at hc
  rcases hc with rfl | rfl | rfl | rfl | rfl | rfl | rfl | rfl <;> rfl

/-- A point in front of a word is a lexeme. -/
theorem lexeme_point {c : Char} (hc : isIdentifierStart c = true) (rest : List WideChar) :
    lexeme '.' (.char c :: rest) = .ok (.separator, 1) := by
  have hne : c ≠ '.' := by
    rintro rfl
    exact absurd hc (by decide)
  simp [lexeme, satisfies_char, hne, isDigit_eq_false_of_start hc, isSeparator]

/-- Three points are one lexeme. -/
theorem lexeme_ellipsis (rest : List WideChar) :
    lexeme '.' (.char '.' :: .char '.' :: rest) = .ok (.operator, 3) := by
  rfl

/-- Question marks and angle brackets are lexemes, as far as no longer operator begins there. -/
theorem lexeme_operator {c : Char} (hc : c ∈ ['?', '<', '>']) {rest : List WideChar} {n : Nat}
    (h : operatorLength? (.char c :: rest) = some n) : lexeme (.char c) rest = .ok (.operator, n) := by
  have hall : ['?', '<', '>'].all (fun c => isSeparator c = false ∧ c.isDigit = false ∧
      isIdentifierStart c = false ∧ c ≠ '.' ∧ c ≠ '@' ∧ c ≠ '\'' ∧ c ≠ '"') = true := by decide
  obtain ⟨hseparator, hdigit, hstart, hpoint, hsign, hquote, hquotes⟩ :=
    of_decide_eq_true (List.all_eq_true.1 hall c hc)
  simp only [lexeme, h, WideChar.char.injEq, satisfies_char, hseparator, hdigit, hstart, hpoint,
    hsign, hquote, hquotes, decide_false, Bool.false_and, Bool.or_self, Bool.false_eq_true, if_false]

/-! ### Cutting into tokens -/

/-- Cutting a text into tokens, wherever it stands, finds tokens with these classes and texts. -/
def FallsInto (text : List Char) (lexemes : List Lexeme) : Prop :=
  ∀ rounds place previousEnd pending, text.length ≤ rounds →
    ∃ tokens, tokensFrom rounds place previousEnd pending (text.map .char) = .ok tokens ∧
      tokens.map toLexeme = lexemes

theorem commentLength_eq_none {c : WideChar} (hc : c ≠ '/') (rest : List WideChar) :
    commentLength (c :: rest) = .ok none := by
  unfold commentLength
  split
  · rename_i heq
    exact absurd (List.cons.inj heq).1 hc
  · rename_i heq
    exact absurd (List.cons.inj heq).1 hc
  · rfl

/-- A lexeme is cut off in front of a text. -/
theorem FallsInto.cons {c : Char} {more rest : List Char} {cls : TokenClass} {lexemes : List Lexeme}
    (hblank : isBlank c = false) (hslash : c ≠ '/')
    (hlexeme : lexeme (.char c) ((more ++ rest).map .char) = .ok (cls, more.length + 1))
    (h : FallsInto rest lexemes) :
    FallsInto (c :: more ++ rest) ((cls, String.ofList (c :: more)) :: lexemes) := by
  intro rounds place previousEnd pending hrounds
  have hlength : (c :: more ++ rest).length = more.length + rest.length + 1 := by
    rw [List.cons_append, List.length_cons, List.length_append]
  obtain ⟨rounds, rfl⟩ : ∃ m, rounds = m + 1 := ⟨rounds - 1, by omega⟩
  obtain ⟨tokens, htokens, hmap⟩ := h rounds (place.after (more.length + 1))
    (place.after (more.length + 1)).index none (by omega)
  have hdrop : (.char c :: (more ++ rest).map WideChar.char).drop (more.length + 1) =
      rest.map .char := by
    rw [List.drop_succ_cons, List.map_append, ← List.length_map WideChar.char, List.drop_left]
  have htake : (.char c :: (more ++ rest).map WideChar.char).take (more.length + 1) =
      .char c :: more.map .char := by
    rw [List.take_succ_cons, List.map_append, ← List.length_map WideChar.char, List.take_left]
  have hvalue : (WideString.ofList (.char c :: more.map .char)).toString =
      String.ofList (c :: more) := by
    simp [WideString.toString, WideChar.toChar, Function.comp_def]
  have hstart : ¬ isBlank (WideChar.char c) = true := by
    show ¬ isBlankChar c = true
    rw [show isBlankChar c = false from hblank]
    decide
  refine ⟨⟨cls, ⟨.char c :: more.map .char⟩, ⟨place.line, place.column⟩, pending⟩ :: tokens, ?_, ?_⟩
  · rw [List.cons_append, List.map_cons, tokensFrom, if_neg hstart,
      commentLength_eq_none (fun heq => hslash (WideChar.char.inj heq))]
    simp only [hlexeme, hdrop, htake, htokens]
    rfl
  · rw [List.map_cons, hmap, toLexeme, Token.value, hvalue]

theorem FallsInto.consOne {c : Char} {rest : List Char} {cls : TokenClass} {lexemes : List Lexeme}
    (hblank : isBlank c = false) (hslash : c ≠ '/')
    (hlexeme : lexeme (.char c) (rest.map .char) = .ok (cls, 1)) (h : FallsInto rest lexemes) :
    FallsInto (c :: rest) ((cls, String.ofList [c]) :: lexemes) := by
  have hone : lexeme (.char c) (([] ++ rest).map .char) = .ok (cls, ([] : List Char).length + 1) :=
    hlexeme
  exact h.cons hblank hslash hone

/-- A space is passed over. -/
theorem FallsInto.space {text : List Char} {lexemes : List Lexeme}
    (hnext : ∀ c ∈ text.head?, isBlank c = false) (h : FallsInto text lexemes) :
    FallsInto (' ' :: text) lexemes := by
  intro rounds place previousEnd pending hrounds
  rw [List.length_cons] at hrounds
  obtain ⟨rounds, rfl⟩ : ∃ m, rounds = m + 1 := ⟨rounds - 1, by omega⟩
  have hdrop : (text.map WideChar.char).dropWhile isBlank = text.map .char := by
    cases text with
    | nil => rfl
    | cons c text =>
      have hc : ¬ isBlank (WideChar.char c) = true := by
        show ¬ isBlankChar c = true
        rw [show isBlankChar c = false from hnext c rfl]
        decide
      exact List.dropWhile_cons_of_neg hc
  rw [List.map_cons, tokensFrom, if_pos (by decide), hdrop]
  exact h rounds _ _ _ (by omega)

/-- A mark is cut off in front of a text without equals signs. -/
theorem FallsInto.mark {mark : Lexeme} {text : List Char} {lexemes : List Lexeme}
    (hmark : mark ∈ headingMarks) (hequals : '=' ∉ text) (h : FallsInto text lexemes) :
    FallsInto (mark.2.toList ++ text) (mark :: lexemes) := by
  have hseparator {c : Char} (hblank : isBlank c = false) (hslash : c ≠ '/')
      (hc : c ∈ Token.marks) : FallsInto (c :: text) ((.separator, String.ofList [c]) :: lexemes) :=
    h.consOne hblank hslash (lexeme_mark hc _)
  simp only [headingMarks, List.mem_cons, List.not_mem_nil, or_false] at hmark
  rcases hmark with rfl | rfl | rfl | rfl | rfl | rfl | rfl | rfl | rfl | rfl | rfl
  case inr.inr.inr.inr.inr.inr.inr.inr.inl =>
    exact h.consOne (by decide) (by decide)
      (lexeme_operator (by decide) (operatorLength?_question text))
  case inr.inr.inr.inr.inr.inr.inr.inr.inr.inl =>
    exact h.consOne (by decide) (by decide)
      (lexeme_operator (by decide) (operatorLength?_unangle hequals))
  case inr.inr.inr.inr.inr.inr.inr.inr.inr.inr =>
    exact h.cons (by decide) (by decide) (lexeme_ellipsis (text.map .char))
  all_goals exact hseparator (by decide) (by decide) (by decide)

/-- **A text falls into the tokens that it is written with.** -/
theorem Spells.fallsInto {text : List Char} {lexemes : List Lexeme} (h : Spells text lexemes) :
    FallsInto text lexemes := by
  induction h with
  | nil => exact fun rounds place previousEnd pending _ => ⟨[], by cases rounds <;> rfl, rfl⟩
  | space hnext _ ih => exact ih.space hnext
  | @word word text lexemes hword hend _ ih =>
    obtain ⟨c, rest, hchars, hc, hrest⟩ := hword
    obtain rfl : word = String.ofList (c :: rest) := by rw [← hchars, String.ofList_toList]
    rw [String.toList_ofList]
    have hslash : c ≠ '/' := by
      rintro rfl
      exact absurd hc (by decide)
    exact ih.cons (isBlank_eq_false_of_start hc) hslash (lexeme_word hc hrest hend)
  | mark hmark h ih => exact ih.mark hmark (h.notMem (by decide) (by decide))
  | point hc _ ih => exact ih.consOne (by decide) (by decide) (lexeme_point hc _)
  | @angle text lexemes hnext h ih =>
    have hequals : '=' ∉ text := h.notMem (by decide) (by decide)
    exact ih.consOne (by decide) (by decide)
      (lexeme_operator (by decide) (operatorLength?_angle hequals hnext))

/-- A source without backslashes is its own decoded text. -/
theorem decode_of_notMem {source : List WideChar} (h : .char '\\' ∉ source) :
    Escape.decode source = .ok source := by
  have hfrom (piece : List WideChar) : Escape.decodeFrom piece .plain source = .ok source := by
    induction source generalizing piece with
    | nil => rfl
    | cons c rest ih =>
      rw [List.mem_cons, not_or] at h
      rw [Escape.decodeFrom, if_neg (Ne.symm h.1), ih h.2]
      rfl
  exact hfrom []

/-- **A source that is written with some tokens falls into these.** -/
theorem Spells.ofSource {source : List Char} {lexemes : List Lexeme} (h : Spells source lexemes) :
    ∃ tokens, ofSource (source.map .char) = .ok (source.map .char, tokens) ∧
      tokens.map toLexeme = lexemes := by
  have hplain : WideChar.char '\\' ∉ source.map .char := by
    simpa using h.notMem (by decide) (by decide)
  obtain ⟨tokens, htokens, hmap⟩ := h.fallsInto source.length .start 0 none le_rfl
  refine ⟨tokens, ?_, hmap⟩
  rw [Token.ofSource, decode_of_notMem hplain]
  simp only [ofText, List.length_map, htokens]

/-! ### Texts in front of others -/

/-- A text begins with a character that passes a test. -/
def Begins (test : Char → Bool) (text : String) : Prop := ∃ c rest, text.toList = c :: rest ∧ test c

/-- A text is written with some tokens, in front of whatever does not go on with a word. -/
def Fronts (front : String) (lexemes : List Lexeme) : Prop :=
  ∀ text more, (∀ c ∈ text.head?, isIdentifierPart c = false) → Spells text more →
    Spells (front.toList ++ text) (lexemes ++ more)

theorem Begins.mono {test test' : Char → Bool} {text : String} (h : Begins test text)
    (htest : ∀ c, test c = true → test' c = true) : Begins test' text := by
  obtain ⟨c, rest, hchars, hc⟩ := h
  exact ⟨c, rest, hchars, htest c hc⟩

theorem Begins.append {test : Char → Bool} {text : String} (h : Begins test text) (more : String) :
    Begins test (text ++ more) := by
  obtain ⟨c, rest, hchars, hc⟩ := h
  exact ⟨c, rest ++ more.toList, by rw [String.toList_append, hchars, List.cons_append], hc⟩

theorem Begins.intercalate {test : Char → Bool} {text : String} (h : Begins test text)
    (separator : String) (texts : List String) :
    Begins test (separator.intercalate (text :: texts)) := by
  cases texts with
  | nil => rwa [String.intercalate_singleton]
  | cons next texts =>
    rw [String.intercalate_cons_cons, String.append_assoc]
    exact h.append _

theorem IsWord.begins {word : String} (h : IsWord word) : Begins isIdentifierStart word := by
  obtain ⟨c, rest, hchars, hc, -⟩ := h
  exact ⟨c, rest, hchars, hc⟩

/-- What follows a word does not go on with it. -/
def endsWord (c : Char) : Bool := !isIdentifierPart c

theorem Fronts.spells {front : String} {lexemes : List Lexeme} (h : Fronts front lexemes) :
    Spells front.toList lexemes := by
  have hspells := h [] [] (fun c hc => nomatch hc) .nil
  rwa [List.append_nil, List.append_nil] at hspells

theorem fronts_empty : Fronts "" [] := fun _ _ _ h => h

theorem Fronts.append {a b : String} {as bs : List Lexeme} (ha : Fronts a as) (hb : Fronts b bs)
    (hends : Begins endsWord b) : Fronts (a ++ b) (as ++ bs) := by
  intro text more hend h
  obtain ⟨c, rest, hchars, hc⟩ := hends
  rw [String.toList_append, List.append_assoc, List.append_assoc]
  refine ha _ _ (fun d hd => ?_) (hb text more hend h)
  rw [hchars] at hd
  obtain rfl : c = d := Option.some.inj hd
  rwa [endsWord, Bool.not_eq_true'] at hc

theorem fronts_word {cls : TokenClass} {word : String} (h : IsWordOf cls word) :
    Fronts word [(cls, word)] := by
  intro text more hend hspells
  rw [← h.cls_eq]
  exact .word h.isWord hend hspells

theorem Fronts.mark {text : String} {lexemes : List Lexeme} (h : Fronts text lexemes)
    {cls : TokenClass} {symbol : String} (hmark : (cls, symbol) ∈ headingMarks) :
    Fronts (symbol ++ text) ((cls, symbol) :: lexemes) := by
  intro behind more hend hspells
  have hspells := Spells.mark hmark (h behind more hend hspells)
  rwa [String.toList_append, List.append_assoc]

theorem fronts_mark {cls : TokenClass} {symbol : String} (h : (cls, symbol) ∈ headingMarks) :
    Fronts symbol [(cls, symbol)] :=
  fun _ _ _ hspells => .mark h hspells

theorem Fronts.space {text : String} {lexemes : List Lexeme} (h : Fronts text lexemes)
    (hbegins : Begins (!isBlank ·) text) : Fronts (" " ++ text) lexemes := by
  intro behind more hend hspells
  obtain ⟨c, rest, hchars, hc⟩ := hbegins
  rw [String.toList_append]
  refine .space (fun d hd => ?_) (h behind more hend hspells)
  rw [hchars] at hd
  obtain rfl : c = d := Option.some.inj hd
  rwa [Bool.not_eq_true'] at hc

theorem Fronts.point {text : String} {lexemes : List Lexeme} (h : Fronts text lexemes)
    (hbegins : Begins isIdentifierStart text) :
    Fronts ("." ++ text) ((.separator, ".") :: lexemes) := by
  intro behind more hend hspells
  obtain ⟨c, rest, hchars, hc⟩ := hbegins
  have hword := h behind more hend hspells
  rw [hchars] at hword
  rw [String.toList_append, hchars]
  exact .point hc hword

theorem Fronts.angle {text : String} {lexemes : List Lexeme} (h : Fronts text lexemes)
    (hbegins : Begins (· ≠ '<') text) : Fronts ("<" ++ text) ((.operator, "<") :: lexemes) := by
  intro behind more hend hspells
  obtain ⟨c, rest, hchars, hc⟩ := hbegins
  rw [String.toList_append]
  refine .angle (fun hnext => ?_) (h behind more hend hspells)
  rw [hchars] at hnext
  obtain rfl : c = '<' := Option.some.inj hnext
  exact absurd hc (by decide)

/-- Texts with a separator between them, if each begins as what the separator stands in front of. -/
theorem fronts_intercalate {α : Type} {test : Char → Bool} {separator : String} {lexeme : Lexeme}
    {items : List α} {text : α → String} {lexemes : α → List Lexeme}
    (hends : Begins endsWord separator)
    (hseparator : ∀ {text lexemes}, Begins test text → Fronts text lexemes →
      Fronts (separator ++ text) (lexeme :: lexemes))
    (hne : items ≠ [])
    (hitems : ∀ item ∈ items, Begins test (text item) ∧ Fronts (text item) (lexemes item)) :
    Fronts (separator.intercalate (items.map text)) ([lexeme].intercalate (items.map lexemes)) := by
  induction items with
  | nil => exact absurd rfl hne
  | cons item items ih =>
    have hitem := (hitems item List.mem_cons_self).2
    cases items with
    | nil =>
      rw [List.map_singleton, List.map_singleton, String.intercalate_singleton,
        List.intercalate_singleton]
      exact hitem
    | cons next items =>
      have hrest := ih (List.cons_ne_nil next items) fun i hi =>
        hitems i (List.mem_cons_of_mem item hi)
      have hnext := (hitems next (List.mem_cons_of_mem item List.mem_cons_self)).1
      have hbegins := hnext.intercalate separator (items.map text)
      simp only [List.map_cons] at hrest ⊢
      rw [String.intercalate_cons_cons, List.intercalate_cons_cons, String.append_assoc,
        List.append_assoc, List.singleton_append]
      exact hitem.append (hseparator hbegins hrest) (hends.append _)

end SourceDoc.Token
