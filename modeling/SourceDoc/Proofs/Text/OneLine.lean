import SourceDoc.Proofs.Text.Trimmed

/-!
# Texts on one line

The words of a text are what stands between its blanks (`words`).  Putting a text on one line means
writing its words with one space between any two of them (`oneLine_eq_intercalate`).  The words can be
read back from such a line (`words_intercalate`), so that nothing changes if it is put on one line again
(`oneLine_oneLine`).

The passage over a text keeps no words, only whether a blank came last.  The proof therefore follows
`List.splitOnPPrepend`, which has the word read so far as its accumulator: in front of what the passage
still writes, that word has been written already (`trimRight_squeezeFrom`).
-/

namespace SourceDoc.Text

/-! ### Words -/

/-- The words of a text: what stands between its blanks. -/
def words (text : List WideChar) : List (List WideChar) :=
  (text.splitOnP isBlank).filter (!·.isEmpty)

/-- A word is not empty and has no blanks. -/
structure IsInk (word : List WideChar) : Prop where
  ne_nil : word ≠ []
  not_blank : ∀ c ∈ word, isBlank c = false

theorem not_blank_of_mem_splitOnP {text part : List WideChar} (h : part ∈ text.splitOnP isBlank) :
    ∀ c ∈ part, isBlank c = false := by
  induction text generalizing part with
  | nil => simp_all
  | cons c text ih =>
    rw [List.splitOnP_cons_eq_if_modifyHead] at h
    obtain ⟨first, rest, hparts⟩ := List.exists_cons_of_ne_nil (List.splitOnP_ne_nil isBlank text)
    rw [hparts] at h ih
    split_ifs at h with hc
    · rcases List.mem_cons.1 h with rfl | h
      · simp
      · exact ih h
    · rw [List.modifyHead_cons] at h
      rcases List.mem_cons.1 h with rfl | h
      · simp_all
      · exact ih (List.mem_cons_of_mem first h)

theorem isInk_of_mem_words {text word : List WideChar} (h : word ∈ words text) : IsInk word := by
  unfold words at h
  simp only [List.mem_filter, Bool.not_eq_true', List.isEmpty_eq_false_iff] at h
  exact ⟨h.2, not_blank_of_mem_splitOnP h.1⟩

/-- Words joined by spaces are found again. -/
theorem words_intercalate {parts : List (List WideChar)} (h : ∀ part ∈ parts, IsInk part) :
    words ([.char ' '].intercalate parts) = parts := by
  induction parts with
  | nil => rfl
  | cons part parts ih =>
    have hpart := h part List.mem_cons_self
    have hrest := ih fun other hother => h other (List.mem_cons_of_mem part hother)
    unfold words at hrest ⊢
    cases parts with
    | nil => simp [List.splitOnP_eq_singleton hpart.not_blank, hpart.ne_nil]
    | cons next parts =>
      rw [List.intercalate_cons_cons, List.append_assoc, List.singleton_append,
        List.splitOnP_append_cons_of_forall_mem hpart.not_blank _ rfl,
        List.filter_cons_of_pos (by simpa using hpart.ne_nil), hrest]

/-! ### The passage over a text -/

/-- Trimming stops at a word. -/
theorem trimRight_append_of_isInk {word : List WideChar} (h : IsInk word) (text : List WideChar) :
    trimRight (word ++ text) = word ++ trimRight text := by
  have hword : word.reverse.dropWhile isBlank = word.reverse := by
    apply List.dropWhile_eq_self_iff.2
    intro hpos
    simp [h.not_blank]
  unfold trimRight
  rw [List.reverse_append, List.dropWhile_append]
  split_ifs with hblank
  · rw [hword, List.isEmpty_iff.1 hblank]
    simp
  · simp

theorem trimRight_cons_of_blank {c : WideChar} (hc : isBlank c = true) (text : List WideChar) :
    trimRight (c :: text) = if trimRight text = [] then [] else c :: trimRight text := by
  unfold trimRight
  rw [List.reverse_cons, List.dropWhile_append]
  simp only [List.isEmpty_iff, List.reverse_eq_nil_iff]
  split_ifs <;> simp [hc]

/-- The first of some words, and what follows it on a line. -/
theorem intercalate_word_cons (word : List WideChar) {parts : List (List WideChar)}
    (h : ∀ part ∈ parts, IsInk part) :
    [.char ' '].intercalate (word :: parts) =
      word ++ if [WideChar.char ' '].intercalate parts = [] then []
        else .char ' ' :: [.char ' '].intercalate parts := by
  cases parts with
  | nil => simp
  | cons part parts =>
    have hne : [WideChar.char ' '].intercalate (part :: parts) ≠ [] := by
      obtain ⟨c, text, hpart⟩ := List.exists_cons_of_ne_nil (h part List.mem_cons_self).ne_nil
      rw [hpart, List.intercalate_cons_cons_left]
      exact List.cons_ne_nil _ _
    rw [if_neg hne, List.intercalate_cons_cons, List.append_assoc]
    rfl

/-- **What the passage writes, up to blanks at the end, are the words and single spaces between them**:
at the start of a word all words of the text, and inside a word, which `read` has backward, also the
rest of that word. -/
theorem trimRight_squeezeFrom (text : List WideChar) :
    trimRight (squeezeFrom true text) = [.char ' '].intercalate (words text) ∧
      ∀ read : List WideChar, IsInk read.reverse →
        trimRight (read.reverse ++ squeezeFrom false text) =
          [.char ' '].intercalate ((text.splitOnPPrepend isBlank read).filter (!·.isEmpty)) := by
  induction text with
  | nil =>
    refine ⟨rfl, fun read hread => ?_⟩
    rw [trimRight_append_of_isInk hread]
    have hne := hread.ne_nil
    simp_all [squeezeFrom, trimRight]
  | cons c text ih =>
    obtain ⟨hstart, hinside⟩ := ih
    have hinside' := hinside [c]
    by_cases hc : isBlank c = true
    · -- The blank ends the word, and of a run of blanks only the first one is written.
      constructor
      · unfold words
        simpa [squeezeFrom, hc, List.splitOnP_cons_eq_if_modifyHead, words] using hstart
      · intro read hread
        have hne := hread.ne_nil
        have hwords : ∀ part ∈ words text, IsInk part := fun part => isInk_of_mem_words
        rw [trimRight_append_of_isInk hread, List.splitOnPPrepend_cons_pos hc,
          List.filter_cons_of_pos (by simpa using hne)]
        rw [← words, intercalate_word_cons _ hwords, ← hstart]
        simp only [squeezeFrom, hc, if_true, Bool.false_eq_true, if_false]
        rw [trimRight_cons_of_blank rfl]
    · -- The character goes to the word that is being read, or begins one.
      have hc : isBlank c = false := by simpa using hc
      constructor
      · have hone : IsInk [c].reverse := ⟨by simp, by simpa using hc⟩
        unfold words
        rw [List.splitOnP_cons_eq_if_splitOnPPrepend, if_neg (by simp [hc]), ← hinside' hone]
        simp [squeezeFrom, hc]
      · intro read hread
        have hlonger : IsInk (c :: read).reverse := by
          refine ⟨by simp, ?_⟩
          intro d hd
          simp only [List.reverse_cons, List.mem_append, List.mem_singleton] at hd
          rcases hd with hd | rfl
          · exact hread.not_blank d hd
          · exact hc
        rw [List.splitOnPPrepend_cons_neg hc, ← hinside _ hlonger]
        simp [squeezeFrom, hc]

/-- Without the blank in front of it, a passage is as if a blank had come before. -/
theorem trimLeft_squeezeFrom (inRun : Bool) (text : List WideChar) :
    trimLeft (squeezeFrom inRun text) = squeezeFrom true text := by
  fun_induction squeezeFrom inRun text with
  | case1 => rfl
  | case2 c text hc ih => simpa [squeezeFrom, hc] using ih
  | case3 inRun c text hc hrun ih =>
    show trimLeft (squeezeFrom true text) = squeezeFrom true (c :: text)
    rw [ih, squeezeFrom, if_pos hc, if_pos rfl]
  | case4 inRun c text hc ih => simp [squeezeFrom, hc, trimLeft]

/-- **A text on one line is its words with single spaces between them.** -/
theorem oneLine_eq_intercalate (text : List WideChar) :
    oneLine text = [.char ' '].intercalate (words text) := by
  unfold oneLine trim
  rw [trimLeft_squeezeFrom]
  exact (trimRight_squeezeFrom text).1

/-- Nothing changes if a line is put on one line. -/
theorem oneLine_oneLine (text : List WideChar) : oneLine (oneLine text) = oneLine text := by
  simp only [oneLine_eq_intercalate]
  rw [words_intercalate fun word => isInk_of_mem_words]

end SourceDoc.Text
