import SourceDoc.Proofs.Except
import SourceDoc.Token.Lexer
import Mathlib.Data.List.TakeWhile
import Mathlib.Tactic.Set

/-!
# How far lexemes reach

Every lexeme takes at least one code point and none beyond the end of the text
(`Lexed.length_bounds`), and so does every comment (`commentLength_bounds`).  The class of a lexeme is
tied to its text: brackets, commas and semicolons are separators (`Lexed.cls_eq_separator`), and words
have the class of the word (`Lexed.cls_eq_classOfWord`).
-/

namespace SourceDoc.Token

open SourceDoc.Text

/-! ### Numerals -/

namespace Numeral

theorem groupLength_le {isDigit : Char → Bool} {text : List WideChar} {n : Nat}
    (h : groupLength isDigit text = .ok n) : n ≤ text.length := by
  unfold groupLength at h
  set run := text.takeWhile (·.satisfies fun c => isDigit c || c == '_') with hrun
  have hrun_le : run.length ≤ text.length := (List.takeWhile_sublist _).length_le
  have hlength : (run.reverse.dropWhile (· = .char '_')).length ≤ run.length := by
    have := (List.dropWhile_sublist (· = WideChar.char '_') (l := run.reverse)).length_le
    rwa [List.length_reverse] at this
  dsimp only at h
  split at h
  · rename_i c tail hdrop
    have hlt : run.length + 1 ≤ text.length := by
      have := congrArg List.length hdrop
      rw [List.length_drop, List.length_cons] at this
      omega
    have h := Except.ok.inj h
    split at h <;> omega
  · split at h
    · cases h
    · have h := Except.ok.inj h
      omega

/-- A group that begins with a digit is not empty. -/
theorem groupLength_pos {isDigit : Char → Bool} {c : Char} {rest : List WideChar} {n : Nat}
    (hdigit : isDigit c = true) (hc : c ≠ '_')
    (h : groupLength isDigit (.char c :: rest) = .ok n) : 1 ≤ n := by
  unfold groupLength at h
  set run := (WideChar.char c :: rest).takeWhile (·.satisfies fun c => isDigit c || c == '_')
    with hrun
  have hpos : 1 ≤ (run.reverse.dropWhile (· = .char '_')).length := by
    -- The first code point of the run is no underscore, so it is left over from the other end.
    have hmem : WideChar.char c ∈ run := by
      rw [hrun, List.takeWhile_cons_of_pos (by simp [WideChar.satisfies, hdigit])]
      exact List.mem_cons_self
    rw [Nat.one_le_iff_ne_zero, ne_eq, List.length_eq_zero_iff, List.dropWhile_eq_nil_iff]
    intro hall
    have := hall _ (List.mem_reverse.2 hmem)
    simp only [WideChar.char.injEq, decide_eq_true_eq] at this
    exact hc this
  dsimp only at h
  split at h
  · have h := Except.ok.inj h
    split at h <;> omega
  · split at h
    · cases h
    · have h := Except.ok.inj h
      omega

theorem length_pos_of_startsWithAny {choices : List Char} {text : List WideChar}
    (h : startsWithAny choices text = true) : 1 ≤ text.length := by
  cases text with
  | nil => cases h
  | cons c rest => simp

/-- Where more than the first `n` code points are looked at, there are more than `n`. -/
theorem lt_length_of_startsWithAny_drop {choices : List Char} {text : List WideChar} {n : Nat}
    (h : startsWithAny choices (text.drop n) = true) : n + 1 ≤ text.length := by
  have := length_pos_of_startsWithAny h
  rw [List.length_drop] at this
  omega

theorem exponentLength_le {choices : List Char} {text : List WideChar} {n : Nat}
    (hstart : startsWithAny choices text = true) (h : exponentLength text = .ok n) :
    n ≤ text.length := by
  have hpos := length_pos_of_startsWithAny hstart
  unfold exponentLength at h
  obtain ⟨digits, hdigits, h⟩ := Except.bind_eq_ok h
  have hle := groupLength_le hdigits
  have h := Except.ok.inj h
  rw [List.length_drop] at hle
  split at h
  · rename_i hsign
    have := lt_length_of_startsWithAny_drop hsign
    rw [if_pos hsign] at hle
    omega
  · rename_i hsign
    rw [if_neg hsign] at hle
    omega

theorem withFloatSuffix_bounds {text : List WideChar} {length : Nat} (h : length ≤ text.length) :
    length ≤ withFloatSuffix text length ∧ withFloatSuffix text length ≤ text.length := by
  unfold withFloatSuffix
  split
  · rename_i hsuffix
    have := lt_length_of_startsWithAny_drop hsuffix
    omega
  · omega

/-- A group behind the first `m` code points ends where the text does, or earlier. -/
theorem groupLength_drop_bounds {isDigit : Char → Bool} {text : List WideChar} {m n : Nat}
    (hm : m ≤ text.length) (h : (groupLength isDigit (text.drop m)).map (m + ·) = .ok n) :
    m ≤ n ∧ n ≤ text.length := by
  obtain ⟨digits, hdigits, rfl⟩ := Except.map_eq_ok h
  have := groupLength_le hdigits
  rw [List.length_drop] at this
  omega

theorem exponentLength_drop_bounds {choices : List Char} {text : List WideChar} {m n : Nat}
    (hstart : startsWithAny choices (text.drop m) = true)
    (h : (exponentLength (text.drop m)).map (m + ·) = .ok n) : m ≤ n ∧ n ≤ text.length := by
  obtain ⟨length, hlength, rfl⟩ := Except.map_eq_ok h
  have := exponentLength_le hstart hlength
  have := lt_length_of_startsWithAny_drop hstart
  rw [List.length_drop] at *
  omega

/-- A fraction takes the point, if there is one, and the group behind it. -/
theorem fraction_bounds {isDigit : Char → Bool} {text : List WideChar} {whole fraction : Nat}
    (hwhole : whole ≤ text.length)
    (h : (if startsWithAny ['.'] (text.drop whole) = true then
      (groupLength isDigit (text.drop (whole + 1))).map (whole + 1 + ·) else pure whole) =
      (.ok fraction : Except Fault Nat)) :
    whole ≤ fraction ∧ fraction ≤ text.length ∧
      (startsWithAny ['.'] (text.drop whole) = true → whole + 1 ≤ fraction) := by
  split at h
  · rename_i hpoint
    have := groupLength_drop_bounds (lt_length_of_startsWithAny_drop hpoint) h
    omega
  · rename_i hpoint
    cases h
    exact ⟨le_rfl, hwhole, fun h => absurd h hpoint⟩

/-- A decimal literal takes its first group and the point behind it, if there is one, and no more
than there is. -/
theorem decimal_bounds {text : List WideChar} {cls : TokenClass} {n : Nat}
    (h : decimal text = .ok (cls, n)) :
    cls.isLiteral ∧ n ≤ text.length ∧ ∃ whole, groupLength Char.isDigit text = .ok whole ∧
      whole ≤ n ∧ (startsWithAny ['.'] (text.drop whole) = true → whole + 1 ≤ n) := by
  unfold decimal at h
  obtain ⟨whole, hwhole, h⟩ := Except.bind_eq_ok h
  have hwhole_le := groupLength_le hwhole
  split at h
  · rename_i hnone
    obtain ⟨rfl, rfl⟩ := Prod.mk.inj (Except.ok.inj h)
    refine ⟨rfl, hwhole_le, whole, hwhole, le_rfl, fun hpoint => ?_⟩
    -- A point is among the code points that would go on with the literal.
    cases htail : text.drop whole with
    | nil => rw [htail] at hpoint; cases hpoint
    | cons c tail =>
      rw [htail] at hpoint hnone
      cases c with
      | surrogate i => cases hpoint
      | char c =>
        simp only [startsWithAny, WideChar.satisfies, List.contains_eq_mem, List.mem_singleton,
          decide_eq_true_eq] at hpoint
        subst hpoint
        cases hnone
  · obtain ⟨fraction, hfraction, h⟩ := Except.ite_bind_eq_ok h
    obtain ⟨hlo, hhi, hpoint⟩ := fraction_bounds hwhole_le hfraction
    obtain ⟨exponent, hexponent, h⟩ := Except.ite_bind_eq_ok h
    obtain ⟨rfl, rfl⟩ := Prod.mk.inj (Except.ok.inj h)
    have hexponent : fraction ≤ exponent ∧ exponent ≤ text.length := by
      split at hexponent
      · exact exponentLength_drop_bounds ‹_› hexponent
      · cases hexponent
        exact ⟨le_rfl, hhi⟩
    have := withFloatSuffix_bounds hexponent.2
    exact ⟨rfl, this.2, whole, hwhole, by omega, fun hp => by have := hpoint hp; omega⟩

theorem hexadecimal_bounds {text : List WideChar} {cls : TokenClass} {n : Nat}
    (hlength : 2 ≤ text.length) (h : hexadecimal text = .ok (cls, n)) :
    cls.isLiteral ∧ 1 ≤ n ∧ n ≤ text.length := by
  unfold hexadecimal at h
  obtain ⟨whole, hwhole, h⟩ := Except.bind_eq_ok h
  have hwhole := groupLength_drop_bounds hlength hwhole
  split at h
  · obtain ⟨rfl, rfl⟩ := Prod.mk.inj (Except.ok.inj h)
    exact ⟨rfl, by omega, hwhole.2⟩
  · obtain ⟨fraction, hfraction, h⟩ := Except.ite_bind_eq_ok h
    obtain ⟨hlo, hhi, -⟩ := fraction_bounds hwhole.2 hfraction
    dsimp only at h
    split at h
    · obtain ⟨exponent, hexponent, h⟩ := Except.bind_eq_ok h
      obtain ⟨rfl, rfl⟩ := Prod.mk.inj (Except.ok.inj h)
      have hexponent := exponentLength_drop_bounds ‹_› hexponent
      have := withFloatSuffix_bounds hexponent.2
      exact ⟨rfl, by omega, this.2⟩
    · cases h

/-- The literal that begins with a digit takes that digit, and no more than there is. -/
theorem literal_bounds {c : Char} {rest : List WideChar} {cls : TokenClass} {n : Nat}
    (hc : c.isDigit = true) (h : literal (.char c :: rest) = .ok (cls, n)) :
    cls.isLiteral ∧ 1 ≤ n ∧ n ≤ rest.length + 1 := by
  have hdecimal : decimal (.char c :: rest) = .ok (cls, n) →
      cls.isLiteral ∧ 1 ≤ n ∧ n ≤ rest.length + 1 := by
    intro h
    obtain ⟨hliteral, hle, whole, hwhole, hlo, -⟩ := decimal_bounds h
    have := groupLength_pos hc (by rintro rfl; cases hc) hwhole
    exact ⟨hliteral, by omega, hle⟩
  unfold literal at h
  split at h
  · cases h
  · rename_i c' rest' heq
    obtain ⟨hc0, rfl⟩ := List.cons.inj heq
    rw [← hc0] at h
    split at h
    · obtain ⟨hliteral, hpos, hle⟩ := hexadecimal_bounds (by simp) h
      exact ⟨hliteral, hpos, hle⟩
    · split at h
      · obtain ⟨length, hlength, h⟩ := Except.map_eq_ok h
        have := groupLength_le hlength
        obtain ⟨rfl, rfl⟩ := Prod.mk.inj h
        exact ⟨rfl, by omega, by simp only [List.length_cons]; omega⟩
      · split at h
        · obtain ⟨length, hlength, h⟩ := Except.map_eq_ok h
          have := groupLength_le hlength
          obtain ⟨rfl, rfl⟩ := Prod.mk.inj h
          rw [List.length_cons] at this
          exact ⟨rfl, by omega, by simp only [List.length_cons]; omega⟩
        · exact hdecimal h
  · exact hdecimal h

end Numeral

/-! ### Lexemes -/

theorem stringTail_bounds {delimiter : WideChar} {mode : StringMode} {text : List WideChar}
    {n : Nat} (h : stringTail delimiter mode text = .ok n) : n ≤ text.length := by
  induction text generalizing mode n with
  | nil => cases mode <;> cases h
  | cons c rest ih =>
    -- Whatever the mode, the literal ends here or goes on in some mode.
    have hstep : n = 1 ∨ ∃ mode', (stringTail delimiter mode' rest).map (· + 1) = .ok n := by
      cases mode <;> simp only [stringTail] at h <;> repeat' split at h
      all_goals first
        | exact .inr ⟨_, h⟩
        | exact .inl (Except.ok.inj h).symm
        | cases h
    obtain rfl | ⟨mode', h⟩ := hstep
    · simp
    · obtain ⟨m, hm, rfl⟩ := Except.map_eq_ok h
      have := ih hm
      simp only [List.length_cons]
      omega

theorem operatorLength?_bounds {text : List WideChar} {n : Nat}
    (h : operatorLength? text = some n) : 1 ≤ n ∧ n ≤ text.length := by
  obtain ⟨op, hfind, rfl⟩ := Option.map_eq_some_iff.1 h
  have hpos : ∀ op ∈ operators, 1 ≤ op.length := by decide
  refine ⟨hpos op (List.mem_of_find?_eq_some hfind), ?_⟩
  have hop : (WideString.ofString op).toList.isPrefixOf text := by
    have := List.find?_some hfind
    exact this
  have hprefix := List.isPrefixOf_iff_prefix.1 hop
  simpa [WideString.ofString, String.length_toList] using hprefix.length_le

/-- A text that begins with an operator begins with the first character of one. -/
theorem exists_operator_of_length? {ch : Char} {rest : List WideChar} {n : Nat}
    (h : operatorLength? (.char ch :: rest) = some n) :
    ∃ op ∈ operators, op.toList.head? = some ch := by
  obtain ⟨op, hfind, hlength⟩ := Option.map_eq_some_iff.1 h
  have hprefix : (WideString.ofString op).toList.isPrefixOf (.char ch :: rest) := by
    have := List.find?_some hfind
    exact this
  refine ⟨op, List.mem_of_find?_eq_some hfind, ?_⟩
  cases hchars : op.toList with
  | nil =>
    have := (operatorLength?_bounds h).1
    simp [← hlength, ← String.length_toList, hchars] at this
  | cons first more =>
    simp only [WideString.ofString, hchars, List.map_cons, List.isPrefixOf_cons_cons,
      Bool.and_eq_true, beq_iff_eq, WideChar.char.injEq] at hprefix
    rw [List.head?_cons, hprefix.1]

/-- What a lexeme can be: its class, its length and what it begins with. -/
inductive Lexed (c : WideChar) (rest : List WideChar) : TokenClass → Nat → Prop where
  | operator {n : Nat} (h : operatorLength? (c :: rest) = some n) : Lexed c rest .operator n
  | atSign (hc : c = '@') : Lexed c rest .atSign 1
  | separator (hc : c.satisfies isSeparator = true) : Lexed c rest .separator 1
  | literal {cls : TokenClass} {n : Nat} (hcls : cls.isLiteral = true)
      (hc : c.satisfies (fun c => c.isDigit || ['.', '\'', '"'].contains c) = true)
      (hpos : 1 ≤ n) (hle : n ≤ rest.length + 1) : Lexed c rest cls n
  | word (hc : c.satisfies isIdentifierStart = true) :
      Lexed c rest
        (classOfWord (WideString.ofList (c :: rest.takeWhile (·.satisfies isIdentifierPart))).toString)
        (c :: rest.takeWhile (·.satisfies isIdentifierPart)).length

theorem lexed_of_lexeme {c : WideChar} {rest : List WideChar} {cls : TokenClass} {n : Nat}
    (h : lexeme c rest = .ok (cls, n)) : Lexed c rest cls n := by
  unfold lexeme at h
  dsimp only at h
  split at h
  · rename_i hdots
    simp only [Bool.and_eq_true] at hdots
    obtain ⟨m, hm⟩ := Option.isSome_iff_exists.1 hdots.2
    obtain ⟨rfl, rfl⟩ := Prod.mk.inj (Except.ok.inj h)
    rw [hm, Option.getD_some]
    exact .operator hm
  split at h
  · obtain ⟨rfl, rfl⟩ := Prod.mk.inj (Except.ok.inj h)
    exact .atSign ‹_›
  split at h
  · rename_i hpoint
    simp only [Bool.and_eq_true, decide_eq_true_eq] at hpoint
    obtain ⟨rfl, -⟩ := hpoint
    obtain ⟨hliteral, hle, whole, hwhole, hlo, hpoint⟩ :=
      Numeral.decimal_bounds (Except.mapError_eq_ok h)
    -- The group before the point is empty, so the point is behind it.
    have hwhole0 : whole = 0 := (Except.ok.inj hwhole).symm
    subst hwhole0
    exact .literal hliteral (by decide) (hpoint rfl) hle
  split at h
  · obtain ⟨rfl, rfl⟩ := Prod.mk.inj (Except.ok.inj h)
    exact .separator ‹_›
  split at h
  · rename_i hquote
    obtain ⟨length, hlength, h⟩ := Except.map_eq_ok h
    obtain ⟨rfl, rfl⟩ := Prod.mk.inj h
    have := stringTail_bounds hlength
    refine .literal rfl ?_ (by omega) (by omega)
    simp only [Bool.or_eq_true, decide_eq_true_eq] at hquote
    obtain rfl | rfl := hquote <;> decide
  split at h
  · rename_i hdigit
    cases c with
    | surrogate i => cases hdigit
    | char c =>
      obtain ⟨hliteral, hpos, hle⟩ := Numeral.literal_bounds hdigit (Except.mapError_eq_ok h)
      refine .literal hliteral ?_ hpos hle
      simp only [WideChar.satisfies] at hdigit ⊢
      rw [hdigit, Bool.true_or]
  split at h
  · obtain ⟨rfl, rfl⟩ := Prod.mk.inj (Except.ok.inj h)
    exact .word ‹_›
  split at h
  · obtain ⟨rfl, rfl⟩ := Prod.mk.inj (Except.ok.inj h)
    exact .operator ‹_›
  · cases h

/-- **A lexeme takes at least one code point, and none beyond the end of the text.** -/
theorem Lexed.length_bounds {c : WideChar} {rest : List WideChar} {cls : TokenClass} {n : Nat}
    (h : Lexed c rest cls n) : 1 ≤ n ∧ n ≤ rest.length + 1 := by
  cases h with
  | operator h => exact operatorLength?_bounds h
  | atSign => omega
  | separator => omega
  | literal hcls hc hpos hle => exact ⟨hpos, hle⟩
  | word hc =>
    have := (List.takeWhile_sublist (l := rest) (·.satisfies isIdentifierPart)).length_le
    simp only [List.length_cons]
    omega

/-- **No lexeme begins with a backslash.** -/
theorem Lexed.ne_backslash {c : WideChar} {rest : List WideChar} {cls : TokenClass} {n : Nat}
    (h : Lexed c rest cls n) : c ≠ .char '\\' := by
  rintro rfl
  cases h with
  | operator h =>
    have hheads : ∀ op ∈ operators, op.toList.head? ≠ some '\\' := by decide
    obtain ⟨op, hmem, hhead⟩ := exists_operator_of_length? h
    exact hheads op hmem hhead
  | atSign hc => cases hc
  | separator hc => exact absurd hc (by decide)
  | literal hcls hc hpos hle => exact absurd hc (by decide)
  | word hc => exact absurd hc (by decide)

/-! ### Classes -/

/-- The characters that bracket, end and list: each is a token of its own, wherever it stands. -/
def marks : List Char := ['(', ')', '{', '}', '[', ']', ';', ',']

theorem marks_begin : ∀ ch ∈ marks, isIdentifierStart ch = false ∧ ch.isDigit = false ∧
    ch ∉ ['.', '\'', '"', '@', Char.ofNat 0xfffd] ∧ ∀ op ∈ operators, op.toList.head? ≠ some ch := by
  have hall : marks.all (fun ch => isIdentifierStart ch = false ∧ ch.isDigit = false ∧
      ch ∉ ['.', '\'', '"', '@', Char.ofNat 0xfffd] ∧
        ∀ op ∈ operators, op.toList.head? ≠ some ch) = true := by decide
  exact fun ch hch => of_decide_eq_true (List.all_eq_true.1 hall ch hch)

/-- A lexeme whose text is a mark begins with that mark. -/
theorem eq_char_of_toString_cons {c : WideChar} {more : List WideChar}
    (h : (WideString.ofList (c :: more)).toString ∈ marks.map String.singleton) :
    ∃ ch ∈ marks, c = .char ch := by
  obtain ⟨ch, hch, heq⟩ := List.mem_map.1 h
  refine ⟨ch, hch, ?_⟩
  have hlist := congrArg String.toList heq
  simp only [String.toList_singleton, WideString.toString, List.map_cons, String.toList_ofList,
    List.cons.injEq] at hlist
  cases c with
  | char c => rw [hlist.1]; rfl
  | surrogate i =>
    have hnot := (marks_begin ch hch).2.2.1
    rw [hlist.1] at hnot
    exact absurd (by simp [WideChar.toChar]) hnot

/-- **Brackets, commas and semicolons are separators.** -/
theorem Lexed.cls_eq_separator {c : WideChar} {rest : List WideChar} {cls : TokenClass} {n : Nat}
    (h : Lexed c rest cls n)
    (hmark : (WideString.ofList ((c :: rest).take n)).toString ∈ marks.map String.singleton) :
    cls = .separator := by
  obtain ⟨m, rfl⟩ : ∃ m, n = m + 1 := ⟨n - 1, by have := h.length_bounds; omega⟩
  rw [List.take_succ_cons] at hmark
  obtain ⟨ch, hch, rfl⟩ := eq_char_of_toString_cons hmark
  obtain ⟨hword, hdigit, hother, hop⟩ := marks_begin ch hch
  cases h with
  | operator h =>
    obtain ⟨op, hmem, hhead⟩ := exists_operator_of_length? h
    exact absurd hhead (hop op hmem)
  | atSign hc =>
    cases hc
    exact absurd (by decide) hother
  | separator => rfl
  | literal hcls hc hpos hle =>
    simp only [WideChar.satisfies, hdigit, Bool.false_or, List.contains_eq_mem,
      decide_eq_true_eq] at hc
    exact absurd (List.mem_append_left ['@', Char.ofNat 0xfffd] hc) hother
  | word hc =>
    rw [WideChar.satisfies, hword] at hc
    cases hc

/-- **Names, modifiers and basic types have the class of their word, and begin as words do.** -/
theorem Lexed.cls_eq_classOfWord {c : WideChar} {rest : List WideChar} {cls : TokenClass} {n : Nat}
    (h : Lexed c rest cls n) (hcls : cls ∈ [TokenClass.identifier, .modifier, .basicType]) :
    cls = classOfWord (WideString.ofList ((c :: rest).take n)).toString ∧
      c.satisfies isIdentifierStart = true := by
  cases h with
  | operator => exact absurd hcls (by decide)
  | atSign => exact absurd hcls (by decide)
  | separator => exact absurd hcls (by decide)
  | literal hliteral =>
    simp only [List.mem_cons, List.not_mem_nil, or_false] at hcls
    obtain rfl | rfl | rfl := hcls <;> cases hliteral
  | word hc =>
    rw [List.length_cons, List.take_succ_cons,
      List.prefix_iff_eq_take.1 (List.takeWhile_prefix _) |>.symm]
    exact ⟨rfl, hc⟩

/-! ### Comments -/

theorem blockTail?_bounds {text : List WideChar} {n : Nat} (h : blockTail? text = some n) :
    2 ≤ n ∧ n ≤ text.length := by
  fun_induction blockTail? text generalizing n with
  | case1 rest =>
    cases h
    simp
  | case2 c rest hnot ih =>
    obtain ⟨m, hm, rfl⟩ := Option.map_eq_some_iff.1 h
    have := ih hm
    simp only [List.length_cons]
    omega
  | case3 => cases h

/-- **A comment takes its two delimiters at least, and no code point beyond the end of the text.** -/
theorem commentLength_bounds {text : List WideChar} {n : Nat}
    (h : commentLength text = .ok (some n)) : 2 ≤ n ∧ n ≤ text.length := by
  unfold commentLength at h
  split at h
  · rename_i rest
    have hline : (rest.takeWhile (· ≠ WideChar.char '\n')).length ≤ rest.length :=
      (List.takeWhile_sublist _).length_le
    have h := Option.some.inj (Except.ok.inj h)
    simp only [List.length_cons]
    split at h <;> omega
  · split at h
    · have := blockTail?_bounds ‹_›
      have h := Option.some.inj (Except.ok.inj h)
      simp only [List.length_cons]
      omega
    · cases h
  · cases h

end SourceDoc.Token
