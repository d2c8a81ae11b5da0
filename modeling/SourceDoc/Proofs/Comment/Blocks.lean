import SourceDoc.Comment.DocComment
import SourceDoc.Proofs.Text.Trimmed

/-!
# The blocks of a comment

What a tag is taken for is told by `BeginsTag` (`splitTag?_eq_some_iff`).  Every block of a comment
begins with the line that opens it, so its tag can be read (`splitTag?_block`).
-/

namespace SourceDoc.DocComment

open SourceDoc.Text

/-- A text begins with the tag that has this word: after its blanks come an at sign and the word, which
goes as far as characters of words do. -/
structure BeginsTag (text word rest : List WideChar) : Prop where
  /-- The word is not empty. -/
  ne_nil : word ≠ []
  /-- It has characters of words only. -/
  isWord : ∀ c ∈ word, c.satisfies isWordChar = true
  /-- It does not go on behind its end. -/
  ends : ∀ c ∈ rest.head?, c.satisfies isWordChar = false
  /-- In front of it there are blanks and an at sign. -/
  text_eq : ∃ blanks, (∀ b ∈ blanks, isBlank b = true) ∧ text = blanks ++ .char '@' :: (word ++ rest)

/-- **The tag of a text is found just if the text begins with it.** -/
theorem splitTag?_eq_some_iff {text word rest : List WideChar} :
    splitTag? text = some (word, rest) ↔ BeginsTag text word rest := by
  constructor
  · intro h
    rw [splitTag?] at h
    split at h
    · rename_i behind htrim
      rw [List.span_eq_takeWhile_dropWhile] at h
      split at h
      · cases h
      rename_i hnonempty hsplit
      obtain ⟨rfl, rfl⟩ := Prod.mk.inj (Option.some.inj h)
      obtain ⟨rfl, rfl⟩ := Prod.mk.inj hsplit
      refine ⟨hnonempty, fun c hc => List.mem_takeWhile_imp hc, fun c hc => ?_,
        text.takeWhile isBlank, fun b hb => List.mem_takeWhile_imp hb, ?_⟩
      · have hstop := List.head?_dropWhile_not (WideChar.satisfies isWordChar) behind
        rw [hc] at hstop
        exact hstop
      · rw [List.takeWhile_append_dropWhile, ← htrim, trimLeft, List.takeWhile_append_dropWhile]
    · cases h
  · rintro ⟨hne, hword, hends, blanks, hblanks, rfl⟩
    have htrim : trimLeft (blanks ++ .char '@' :: (word ++ rest)) = .char '@' :: (word ++ rest) := by
      rw [trimLeft_append_of_blank hblanks]
      rfl
    have hstop : rest.takeWhile (·.satisfies isWordChar) = [] ∧
        rest.dropWhile (·.satisfies isWordChar) = rest := by
      cases rest with
      | nil => exact ⟨rfl, rfl⟩
      | cons c rest =>
        have hc := Bool.eq_false_iff.1 (hends c rfl)
        exact ⟨List.takeWhile_cons_of_neg hc, List.dropWhile_cons_of_neg hc⟩
    have hspan : (word ++ rest).span (·.satisfies isWordChar) = (word, rest) := by
      rw [List.span_eq_takeWhile_dropWhile, List.takeWhile_append_of_pos hword,
        List.dropWhile_append_of_pos hword, hstop.1, hstop.2, List.append_nil]
    rw [splitTag?, htrim]
    simp only [hspan]

/-- A text begins with a tag, if an at sign and a character of a word come behind its blanks. -/
theorem splitTag?_ne_none_iff {text : List WideChar} :
    splitTag? text ≠ none ↔ ∃ c rest, trimLeft text = .char '@' :: c :: rest ∧
      c.satisfies isWordChar = true := by
  constructor
  · intro h
    rw [splitTag?] at h
    split at h
    · rename_i rest htext
      rw [List.span_eq_takeWhile_dropWhile] at h
      cases rest with
      | nil => exact absurd rfl h
      | cons c rest =>
        refine ⟨c, rest, htext, ?_⟩
        refine Decidable.not_not.1 fun hc => h ?_
        rw [List.takeWhile_cons_of_neg hc]
    · exact absurd rfl h
  · rintro ⟨c, rest, htext, hc⟩
    rw [splitTag?, htext]
    simp only [List.span_eq_takeWhile_dropWhile, List.takeWhile_cons_of_pos hc]
    nofun

theorem splitTag?_append {text : List WideChar} (h : splitTag? text ≠ none) (more : List WideChar) :
    splitTag? (text ++ more) ≠ none := by
  obtain ⟨c, rest, htext, hc⟩ := splitTag?_ne_none_iff.1 h
  refine splitTag?_ne_none_iff.2 ⟨c, rest ++ more, ?_, hc⟩
  rw [trimLeft] at htext ⊢
  rw [List.dropWhile_append, htext]
  rfl

/-- A text of lines begins with the first of them. -/
theorem exists_joinLines_cons (line : List WideChar) (lines : List (List WideChar)) :
    ∃ more, joinLines (line :: lines) = line ++ more := by
  cases lines with
  | nil => exact ⟨[], by rw [joinLines_singleton, List.append_nil]⟩
  | cons next lines =>
    exact ⟨_, joinLines_cons_cons line _ _⟩

/-- **Every block of a comment begins with a tag.** -/
theorem splitTag?_block {lines block : List (List WideChar)} (h : block ∈ (groupLines lines).2) :
    splitTag? (joinLines block) ≠ none := by
  induction lines with
  | nil => cases h
  | cons line rest ih =>
    simp only [groupLines] at h
    by_cases hopens : opensBlock line = true
    · rw [if_pos hopens] at h
      rcases List.mem_cons.1 h with rfl | h
      · obtain ⟨more, hmore⟩ := exists_joinLines_cons line ((groupLines rest).1.map trimLeft)
        rw [hmore]
        exact splitTag?_append (Option.isSome_iff_ne_none.1 hopens) more
      · exact ih h
    · rw [if_neg hopens] at h
      exact ih h

end SourceDoc.DocComment
