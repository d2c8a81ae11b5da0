import SourceDoc.Proofs.Text.CodePoints
import SourceDoc.Proofs.Token.Reading

/-!
# Words

Names, modifiers and basic types are words: they begin with a character that may begin an identifier,
and go on with characters that may stand in one (`Reading.isWord`).  What begins a word is no digit,
in any script (`isDigit_eq_false_of_start`), so a point in front of a word is a token of its own.
-/

namespace SourceDoc.Token

open SourceDoc.Text

/-! ### Characters that begin words -/

/-- A set that is apart from both kinds of digits contains none. -/
theorem isDigit_eq_false_of_areApart {s : CodePointSet} (hdecimal : s.areApart decimalRuns = true)
    (hother : s.areApart positionalDigits = true) {c : Char} (hc : s.contains c = true) :
    isDigit c = false := by
  have hnone := CodePointSet.contains_eq_false_of_areApart hdecimal hc
  rw [isDigit, CodePointSet.contains_eq_false_of_areApart hother hc, Bool.and_false, Bool.or_false]
  refine Bool.eq_false_iff.2 fun hsome => ?_
  rw [contains_decimalRuns hsome] at hnone
  cases hnone

/-- **No digit of any script begins a word.** -/
theorem isDigit_eq_false_of_start {c : Char} (h : isIdentifierStart c = true) :
    isDigit c = false := by
  by_cases hascii : c.toNat < 0x80
  · have hplain : ¬ (0x80 ≤ c.toNat) := by omega
    rw [isDigit, digitValue?, if_pos hascii, decide_eq_false hplain, Bool.false_and, Bool.or_false]
    split
    · rename_i hdigit
      -- the ten digits begin no word
      have hnone : ∀ n ∈ [48, 49, 50, 51, 52, 53, 54, 55, 56, 57],
          isIdentifierStart (Char.ofNat n) = false := by decide
      have hrange := Char.isDigit_iff_toNat.1 hdigit
      change 48 ≤ c.toNat ∧ c.toNat ≤ 57 at hrange
      rw [eq_false_of_mem_codes hnone (by simp only [List.mem_cons]; omega)] at h
      cases h
    · rfl
  · rw [isIdentifierStart, Bool.or_eq_true, Bool.or_eq_true, Bool.or_eq_true] at h
    rcases h with ((hletter | hconnector) | hcurrency) | hnumber
    · rw [isLetter, if_neg hascii] at hletter
      exact isDigit_eq_false_of_areApart (by decide +kernel) (by decide +kernel) hletter
    · have hnone : ∀ n ∈ [0x5f, 0x203f, 0x2040, 0x2054, 0xfe33, 0xfe34, 0xfe4d, 0xfe4e, 0xfe4f,
          0xff3f], isDigit (Char.ofNat n) = false := by decide +kernel
      exact eq_false_of_mem_codes hnone (List.contains_iff_mem.1 hconnector)
    · rw [isCurrency, Bool.or_eq_true, decide_eq_true_eq] at hcurrency
      rcases hcurrency with rfl | hcurrency
      · decide
      · exact isDigit_eq_false_of_areApart (by decide +kernel) (by decide +kernel)
          (Bool.and_eq_true_iff.1 hcurrency).2
    · exact isDigit_eq_false_of_areApart (by decide +kernel) (by decide +kernel)
        (Bool.and_eq_true_iff.1 hnumber).2

theorem char_isDigit_eq_false_of_start {c : Char} (h : isIdentifierStart c = true) :
    c.isDigit = false := by
  refine Bool.eq_false_iff.2 fun hdigit => ?_
  have hrange := Char.isDigit_iff_toNat.1 hdigit
  change 48 ≤ c.toNat ∧ c.toNat ≤ 57 at hrange
  have hsome : isDigit c = true := by
    rw [isDigit, digitValue?, if_pos (by omega), if_pos hdigit]
    rfl
  rw [isDigit_eq_false_of_start h] at hsome
  cases hsome

/-- No blank begins a word. -/
theorem isBlank_eq_false_of_start {c : Char} (h : isIdentifierStart c = true) :
    isBlank c = false := by
  have hblanks : ∀ n ∈ blankCodes, isIdentifierStart (Char.ofNat n) = false := by decide +kernel
  exact isBlankChar_eq_false hblanks h

/-- What begins a word may go on with it. -/
theorem isIdentifierPart_of_start {c : Char} (h : isIdentifierStart c = true) :
    isIdentifierPart c = true := by
  rw [isIdentifierPart, h, Bool.true_or, Bool.true_or]

/-! ### Words -/

/-- A text that begins as identifiers do and goes on as they do. -/
def IsWord (word : String) : Prop :=
  ∃ c rest, word.toList = c :: rest ∧ isIdentifierStart c = true ∧
    ∀ d ∈ rest, isIdentifierPart d = true

/-- A word of a class. -/
structure IsWordOf (cls : TokenClass) (word : String) : Prop where
  /-- It is a word. -/
  isWord : IsWord word
  /-- It has that class. -/
  cls_eq : classOfWord word = cls

/-- The test of a word, character by character. -/
theorem isWordOf_of_all {cls : TokenClass} {word : String}
    (hfirst : word.toList.head?.any isIdentifierStart = true)
    (hall : word.toList.all isIdentifierPart = true) (hcls : classOfWord word = cls) :
    IsWordOf cls word := by
  cases hchars : word.toList with
  | nil =>
    rw [hchars] at hfirst
    cases hfirst
  | cons c rest =>
    rw [hchars] at hfirst hall
    have hparts := List.forall_mem_cons.1 (List.all_eq_true.1 hall)
    exact ⟨⟨c, rest, hchars, hfirst, hparts.2⟩, hcls⟩

theorem notMem_of_start {c : Char} (hc : isIdentifierStart c = true) {others : List Char}
    (h : others.all (!isIdentifierStart ·) = true) : c ∉ others := by
  intro hmem
  have hnot := List.all_eq_true.1 h c hmem
  rw [hc] at hnot
  cases hnot

theorem IsWord.isIdentifierPart {word : String} (h : IsWord word) :
    ∀ c ∈ word.toList, isIdentifierPart c = true := by
  obtain ⟨c, rest, hword, hc, hrest⟩ := h
  intro d hd
  rw [hword] at hd
  rcases List.mem_cons.1 hd with rfl | hd
  · exact isIdentifierPart_of_start hc
  · exact hrest d hd

/-- Code points that all pass a test are characters. -/
theorem toChar_of_satisfies {test : Char → Bool} {c : WideChar} (h : c.satisfies test = true) :
    test c.toChar = true := by
  cases c with
  | char c => exact h
  | surrogate index => cases h

/-- The classes of words whose texts are kept. -/
def wordClasses : List TokenClass := [.identifier, .modifier, .basicType]

/-- Names, modifiers and basic types are words. -/
theorem Lexed.isWord {c : WideChar} {rest : List WideChar} {cls : TokenClass} {n : Nat}
    (h : Lexed c rest cls n) (hcls : cls ∈ wordClasses) :
    IsWord (WideString.ofList ((c :: rest).take n)).toString := by
  cases h with
  | operator => exact absurd hcls (by decide)
  | atSign => exact absurd hcls (by decide)
  | separator => exact absurd hcls (by decide)
  | literal hliteral =>
    simp only [wordClasses, List.mem_cons, List.not_mem_nil, or_false] at hcls
    obtain rfl | rfl | rfl := hcls <;> cases hliteral
  | word hc =>
    rw [List.length_cons, List.take_succ_cons,
      List.prefix_iff_eq_take.1 (List.takeWhile_prefix _) |>.symm]
    refine ⟨c.toChar, _, String.toList_ofList .., toChar_of_satisfies hc, fun d hd => ?_⟩
    obtain ⟨e, he, rfl⟩ := List.mem_map.1 hd
    exact toChar_of_satisfies (List.mem_takeWhile_imp he)

/-- **Names, modifiers and basic types are words of their class.** -/
theorem Reading.isWordOf {place : Place} {text : List WideChar} {items : List (Place × Token)}
    (h : Reading place text items) :
    ∀ token ∈ items.map Prod.snd, token.cls ∈ wordClasses → IsWordOf token.cls token.value := by
  induction h with
  | done => intro token htoken; cases htoken
  | gap _ _ ih => exact ih
  | @token place c text rest token items hlexeme htext _ _ ih =>
    intro t ht hcls
    rcases List.mem_cons.1 ht with rfl | ht
    · have hlexed := lexed_of_lexeme hlexeme
      have htake : (c :: (text ++ rest)).take (text.length + 1) = c :: text := by
        rw [List.take_succ_cons, List.take_left]
      have hword := hlexed.isWord hcls
      have hclass := (hlexed.cls_eq_classOfWord hcls).1
      rw [htake, ← htext] at hword hclass
      exact ⟨hword, hclass.symm⟩
    · exact ih t ht hcls

end SourceDoc.Token
