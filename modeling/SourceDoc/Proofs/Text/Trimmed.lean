import Mathlib.Data.List.DropRight
import Mathlib.Data.List.TakeDrop
import Mathlib.Data.List.TakeWhile
import SourceDoc.Text.Blank
import SourceDoc.Text.Lines

/-!
# Trimmed texts and their lines

A text is trimmed if it neither begins nor ends with a blank (`trim_eq_self_iff`).  The lines of a
text are found again where each of them ends in a line feed (`splitLines_append_feed`), and if the
text is trimmed, the first and the last of its lines are not empty (`framed_of_joinLines`).
-/

namespace SourceDoc.Text

/-! ### Trimmed texts -/

section

variable {α : Type} [Blank α] {text : List α}

theorem trimLeft_eq_self_iff : trimLeft text = text ↔ ∀ c ∈ text.head?, isBlank c = false := by
  cases text with
  | nil => simp [trimLeft]
  | cons c rest => simp [trimLeft]

theorem trimRight_eq_self_iff : trimRight text = text ↔ ∀ c ∈ text.getLast?, isBlank c = false := by
  show text.rdropWhile isBlank = text ↔ _
  rw [List.rdropWhile_eq_self_iff]
  cases text with
  | nil => simp
  | cons c rest => simp [List.getLast?_eq_some_getLast]

/-- What is left of a text in front of its last characters, is a part of it. -/
theorem trimRight_isPrefix (text : List α) : trimRight text <+: text :=
  List.rdropWhile_prefix isBlank text

/-- A text is trimmed if neither its first nor its last character is a blank. -/
theorem trim_eq_self_iff : trim text = text ↔
    (∀ c ∈ text.head?, isBlank c = false) ∧ ∀ c ∈ text.getLast?, isBlank c = false := by
  constructor
  · intro h
    have hleft : trimLeft text = text := by
      have hpre : trim text <+: trimLeft text := trimRight_isPrefix (trimLeft text)
      have hsuf : trimLeft text <:+ text := List.dropWhile_suffix isBlank
      rw [h] at hpre
      exact hsuf.eq_of_length_le hpre.length_le
    rw [trim, hleft] at h
    exact ⟨trimLeft_eq_self_iff.1 hleft, trimRight_eq_self_iff.1 h⟩
  · rintro ⟨hfirst, hlast⟩
    rw [trim, trimLeft_eq_self_iff.2 hfirst, trimRight_eq_self_iff.2 hlast]

theorem trimLeft_append_of_blank {blanks : List α} (h : ∀ c ∈ blanks, isBlank c = true)
    (text : List α) : trimLeft (blanks ++ text) = trimLeft text :=
  List.dropWhile_append_of_pos h

theorem trimRight_of_blank {blanks : List α} (h : ∀ c ∈ blanks, isBlank c = true) :
    trimRight blanks = [] :=
  List.rdropWhile_eq_nil_iff.2 h

theorem trim_of_blank {blanks : List α} (h : ∀ c ∈ blanks, isBlank c = true) : trim blanks = [] := by
  unfold trim
  apply trimRight_of_blank
  exact fun c hc => h c ((List.dropWhile_sublist isBlank).subset hc)

theorem trim_trim (text : List α) : trim (trim text) = trim text := by
  have hright : trimRight (trim text) = trim text := List.rdropWhile_idempotent isBlank _
  -- What is left begins as the text does without the blanks in front of it.
  have hleft : trimLeft (trim text) = trim text := by
    apply trimLeft_eq_self_iff.2
    intro c hc
    have hhead : c ∈ (trimLeft text).head? := by
      have hpre : trim text <+: trimLeft text := trimRight_isPrefix (trimLeft text)
      obtain ⟨rest, hrest⟩ := List.head?_eq_some_iff.1 hc
      obtain ⟨back, hback⟩ := hpre
      rw [← hback, hrest]
      rfl
    have hagain : trimLeft (trimLeft text) = trimLeft text := List.dropWhile_idempotent isBlank text
    exact trimLeft_eq_self_iff.1 hagain c hhead
  rw [trim, hleft, hright]

/-- Trimming takes nothing but blanks away. -/
theorem exists_eq_append_trim (text : List α) : ∃ front back, text = front ++ trim text ++ back ∧
    (∀ c ∈ front, isBlank c = true) ∧ ∀ c ∈ back, isBlank c = true := by
  refine ⟨text.takeWhile isBlank, ((trimLeft text).reverse.takeWhile isBlank).reverse, ?_, ?_, ?_⟩
  · have hback : trimLeft text = trim text ++ ((trimLeft text).reverse.takeWhile isBlank).reverse := by
      unfold trim trimRight
      rw [← List.reverse_append, List.takeWhile_append_dropWhile, List.reverse_reverse]
    rw [List.append_assoc, ← hback]
    exact List.takeWhile_append_dropWhile.symm
  · exact fun c hc => List.mem_takeWhile_imp hc
  · exact fun c hc => List.mem_takeWhile_imp (List.mem_reverse.1 hc)

end

/-! ### Lines -/

/-- A text that ends no line. -/
def IsLine (text : List WideChar) : Prop := ∀ c ∈ text, c.satisfies isLineBreak = false

theorem IsLine.append {a b : List WideChar} (ha : IsLine a) (hb : IsLine b) : IsLine (a ++ b) := by
  intro c hc
  rcases List.mem_append.1 hc with hc | hc
  · exact ha c hc
  · exact hb c hc

/-- Characters that end a line are blank. -/
theorem isBlank_of_isLineBreak {c : WideChar} (h : c.satisfies isLineBreak = true) :
    isBlank c = true := by
  cases c with
  | surrogate index => cases h
  | char c =>
    show isBlankChar c = true
    simp only [WideChar.satisfies, isLineBreak, Bool.or_eq_true, Bool.and_eq_true,
      decide_eq_true_eq, beq_iff_eq] at h
    simp only [isBlankChar, Bool.or_eq_true, Bool.and_eq_true, decide_eq_true_eq, beq_iff_eq]
    omega

theorem splitLines_cons_of_not_break {c : WideChar} (h : c.satisfies isLineBreak = false)
    {rest line : List WideChar} {lines : List (List WideChar)}
    (hrest : splitLines rest = line :: lines) : splitLines (c :: rest) = (c :: line) :: lines := by
  rw [splitLines.eq_3]
  · rw [if_neg (by rw [h]; decide), hrest]
  · rintro _ rfl _
    exact absurd h (by decide)

/-- The lines of a text that begins with a line. -/
theorem splitLines_append_feed {line : List WideChar} (h : IsLine line) (rest : List WideChar) :
    splitLines (line ++ .char '\n' :: rest) = line :: splitLines rest := by
  induction line with
  | nil => rfl
  | cons c line ih =>
    exact splitLines_cons_of_not_break (h c List.mem_cons_self)
      (ih fun d hd => h d (List.mem_cons_of_mem c hd))

/-- A line without an end is the only line of its text. -/
theorem splitLines_of_isLine {line : List WideChar} (h : IsLine line) (hne : line ≠ []) :
    splitLines line = [line] := by
  induction line with
  | nil => exact absurd rfl hne
  | cons c line ih =>
    have hc := h c List.mem_cons_self
    cases line with
    | nil =>
      rw [splitLines.eq_3 _ _ (by simp), if_neg (by rw [hc]; decide)]
      rfl
    | cons d line =>
      exact splitLines_cons_of_not_break hc
        (ih (fun e he => h e (List.mem_cons_of_mem c he)) (List.cons_ne_nil d line))

/-- The lines of a text in which each line is ended, and what is behind the last of them. -/
theorem splitLines_flatMap_append {lines : List (List WideChar)} (h : ∀ line ∈ lines, IsLine line)
    (rest : List WideChar) :
    splitLines (lines.flatMap (· ++ [.char '\n']) ++ rest) = lines ++ splitLines rest := by
  induction lines with
  | nil => rfl
  | cons line lines ih =>
    rw [List.flatMap_cons, List.append_assoc, List.append_assoc, List.singleton_append,
      splitLines_append_feed (h line List.mem_cons_self),
      ih fun l hl => h l (List.mem_cons_of_mem line hl), List.cons_append]

/-! ### Lines that are joined -/

theorem joinLines_singleton (line : List WideChar) : joinLines [line] = line :=
  List.intercalate_singleton

theorem joinLines_cons_cons (line next : List WideChar) (lines : List (List WideChar)) :
    joinLines (line :: next :: lines) = line ++ .char '\n' :: joinLines (next :: lines) := by
  rw [joinLines, List.intercalate_cons_cons, List.append_assoc]
  rfl

theorem joinLines_append_cons (text line : List WideChar) (lines : List (List WideChar)) :
    joinLines ((text ++ line) :: lines) = text ++ joinLines (line :: lines) := by
  cases lines with
  | nil => rw [joinLines_singleton, joinLines_singleton]
  | cons next lines =>
    rw [joinLines_cons_cons, joinLines_cons_cons, List.append_assoc]

/-- The lines do not begin or end with an empty one. -/
def Framed (lines : List (List WideChar)) : Prop :=
  (∀ line ∈ lines.head?, line ≠ []) ∧ ∀ line ∈ lines.getLast?, line ≠ []

theorem Framed.append {a b : List (List WideChar)} (ha : Framed a) (hb : Framed b) :
    Framed (a ++ b) := by
  constructor
  · intro line hline
    rw [List.head?_append, Option.mem_def, Option.or_eq_some_iff] at hline
    rcases hline with hline | ⟨-, hline⟩
    · exact ha.1 line hline
    · exact hb.1 line hline
  · intro line hline
    rw [List.getLast?_append, Option.mem_def, Option.or_eq_some_iff] at hline
    rcases hline with hline | ⟨-, hline⟩
    · exact hb.2 line hline
    · exact ha.2 line hline

theorem framed_flatMap {β : Type} {l : List β} {f : β → List (List WideChar)}
    (h : ∀ b ∈ l, Framed (f b)) : Framed (l.flatMap f) := by
  induction l with
  | nil => exact ⟨by simp, by simp⟩
  | cons b l ih =>
    rw [List.flatMap_cons]
    exact (h b List.mem_cons_self).append (ih fun c hc => h c (List.mem_cons_of_mem b hc))

/-- The last character of joined lines is that of the last line, or the line feed in front of it. -/
theorem getLast?_joinLines (lines : List (List WideChar)) (last : List WideChar) :
    (joinLines (lines ++ [last])).getLast? =
      last.getLast?.or (if lines = [] then none else some (.char '\n')) := by
  induction lines with
  | nil => simp [joinLines]
  | cons line lines ih =>
    have hjoin : joinLines (line :: lines ++ [last]) =
        line ++ [.char '\n'] ++ joinLines (lines ++ [last]) := by
      cases lines <;> simp [joinLines, List.intercalate_cons_cons]
    rw [hjoin, List.getLast?_append, ih]
    cases lines <;> simp

/-- A trimmed text, if it is not empty, begins and ends with a line that is not. -/
theorem framed_of_joinLines {lines : List (List WideChar)}
    (htrim : trim (joinLines lines) = joinLines lines) (hne : joinLines lines ≠ []) :
    Framed lines := by
  obtain ⟨hfirst, hlast⟩ := trim_eq_self_iff.1 htrim
  constructor
  · rintro line hline rfl
    -- an empty line in front leaves its line feed as the first character
    cases lines with
    | nil => cases hline
    | cons line lines =>
      obtain rfl : line = [] := Option.some.inj hline
      cases lines with
      | nil => exact hne rfl
      | cons next lines =>
        have := hfirst (.char '\n') (by simp [joinLines, List.intercalate_cons_cons])
        exact absurd this (by decide)
  · intro last hmem hempty
    obtain ⟨front, rfl⟩ := List.getLast?_eq_some_iff.1 hmem
    rw [hempty] at hlast hne
    rw [getLast?_joinLines] at hlast
    by_cases hfront : front = []
    · exact hne (by rw [hfront]; rfl)
    · rw [if_neg hfront] at hlast
      exact absurd (hlast (.char '\n') rfl) (by decide)

/-- Empty lines around framed ones are dropped at both ends. -/
theorem dropEmpty_framed {front lines back : List (List WideChar)} (hlines : Framed lines)
    (hfront : ∀ line ∈ front, line = []) (hback : ∀ line ∈ back, line = []) :
    (((front ++ lines ++ back).dropWhile List.isEmpty).reverse.dropWhile List.isEmpty).reverse =
      lines := by
  have isEmpty_of {l : List (List WideChar)} (h : ∀ line ∈ l, line = []) :
      ∀ line ∈ l, List.isEmpty line = true := by
    intro line hline
    rw [h line hline, List.isEmpty_nil]
  show ((front ++ lines ++ back).dropWhile List.isEmpty).rdropWhile List.isEmpty = lines
  rw [List.append_assoc, List.dropWhile_append_of_pos (isEmpty_of hfront)]
  cases lines with
  | nil =>
    rw [List.nil_append, List.dropWhile_eq_nil_iff.2 (isEmpty_of hback), List.rdropWhile_nil]
  | cons line lines =>
    have hline : ¬ line.isEmpty = true := by
      rw [List.isEmpty_iff]
      exact hlines.1 line rfl
    rw [List.cons_append, List.dropWhile_cons_of_neg hline, ← List.cons_append, List.rdropWhile,
      List.reverse_append, List.dropWhile_append_of_pos fun l hl =>
        isEmpty_of hback l (List.mem_reverse.1 hl)]
    show (line :: lines).rdropWhile List.isEmpty = _
    rw [List.rdropWhile_eq_self_iff]
    intro hl hempty
    exact hlines.2 _ (List.getLast?_eq_some_getLast hl) (List.isEmpty_iff.1 hempty)

end SourceDoc.Text
