import Mathlib.Data.List.Forall2
import SourceDoc.Proofs.Comment.Layout

/-!
# Nothing of a comment is lost

A comment is read line by line, and what is left of its lines is put together again, trimmed, and cut
into a description and tags.  Only blanks get lost on the way (`read_conserves`): the other characters
of the lines, in their order, are those of the description and of the tags.  Each line that begins with
a tag gives one tag, whose word is that of the line, although the word is looked for again in the block
that the line opens (`BeginsTag.joinLines`).
-/

namespace SourceDoc

open SourceDoc.Text

/-! ### What is not blank -/

/-- The characters of a text that are not blank, in order. -/
def inked (text : List WideChar) : List WideChar := text.filter (!isBlank ·)

theorem inked_append (a b : List WideChar) : inked (a ++ b) = inked a ++ inked b :=
  List.filter_append a b

theorem inked_of_blank {blanks : List WideChar} (h : ∀ c ∈ blanks, isBlank c = true) :
    inked blanks = [] := by
  refine List.filter_eq_nil_iff.2 fun c hc => ?_
  rw [h c hc]
  decide

theorem inked_of_not_blank {text : List WideChar} (h : ∀ c ∈ text, isBlank c = false) :
    inked text = text := by
  refine List.filter_eq_self.2 fun c hc => ?_
  rw [h c hc]
  rfl

theorem inked_cons_of_blank {c : WideChar} (h : isBlank c = true) (text : List WideChar) :
    inked (c :: text) = inked text :=
  List.filter_cons_of_neg (by rw [h]; decide)

/-- Trimming takes away blanks only. -/
theorem inked_trimLeft (text : List WideChar) : inked (trimLeft text) = inked text := by
  conv_rhs => rw [← List.takeWhile_append_dropWhile (p := isBlank) (l := text)]
  rw [inked_append, inked_of_blank fun c hc => List.mem_takeWhile_imp hc, List.nil_append]
  rfl

theorem inked_reverse (text : List WideChar) : inked text.reverse = (inked text).reverse :=
  List.filter_reverse

theorem inked_trimRight (text : List WideChar) : inked (trimRight text) = inked text := by
  have hfront := inked_trimLeft text.reverse
  rw [inked_reverse] at hfront
  rw [trimRight, inked_reverse]
  exact (congrArg List.reverse hfront).trans (List.reverse_reverse _)

theorem inked_trim (text : List WideChar) : inked (trim text) = inked text := by
  rw [trim, inked_trimRight, inked_trimLeft]

/-- The line feeds between joined lines are blank. -/
theorem inked_joinLines (lines : List (List WideChar)) :
    inked (joinLines lines) = inked lines.flatten := by
  induction lines with
  | nil => rfl
  | cons line lines ih =>
    cases lines with
    | nil => rw [joinLines_singleton, List.flatten_singleton]
    | cons next lines =>
      rw [joinLines_cons_cons, List.flatten_cons, inked_append, inked_append, ← ih,
        inked_cons_of_blank (by decide)]

theorem inked_flatten_map_trimLeft (lines : List (List WideChar)) :
    inked (lines.map trimLeft).flatten = inked lines.flatten := by
  induction lines with
  | nil => rfl
  | cons line lines ih =>
    rw [List.map_cons, List.flatten_cons, List.flatten_cons, inked_append, inked_append, ih,
      inked_trimLeft]

/-! ### Words of tags -/

namespace DocComment

/-- **The word of a block is that of its first line**, because a line feed ends a word. -/
theorem BeginsTag.joinLines {line word rest : List WideChar} (h : BeginsTag line word rest)
    (lines : List (List WideChar)) :
    BeginsTag (joinLines (line :: lines)) word (joinLines (rest :: lines)) := by
  obtain ⟨hne, hword, hends, blanks, hblanks, rfl⟩ := h
  refine ⟨hne, hword, fun c hc => ?_, blanks, hblanks, ?_⟩
  · cases rest with
    | cons d rest =>
      obtain ⟨more, hmore⟩ := exists_joinLines_cons (d :: rest) lines
      rw [hmore] at hc
      exact hends c hc
    | nil =>
      cases lines with
      | nil => cases hc
      | cons next lines =>
        rw [joinLines_cons_cons] at hc
        obtain rfl : .char '\n' = c := Option.some.inj hc
        decide +kernel
  · have hsplit := joinLines_append_cons (blanks ++ .char '@' :: word) rest lines
    simpa using hsplit

/-- A word has no surrogates, so all of it is kept. -/
theorem toList_toString_of_isWord {word : List WideChar}
    (h : ∀ c ∈ word, c.satisfies isWordChar = true) :
    (WideString.ofList word).toString.toList.map .char = word := by
  rw [WideString.toString, String.toList_ofList, List.map_map]
  refine (List.map_congr_left fun c hc => ?_).trans (List.map_id word)
  cases c with
  | char c => rfl
  | surrogate index => exact absurd (h _ hc) Bool.false_ne_true

theorem splitWord_append (text : List WideChar) : (splitWord text).1 ++ (splitWord text).2 = text := by
  rw [splitWord, List.span_eq_takeWhile_dropWhile]
  exact List.takeWhile_append_dropWhile

end DocComment

open DocComment

/-- What a tag was read from, but for blanks: an at sign, the word, the name if there is one, and the
content. -/
def BlockTag.parts (t : BlockTag) : List WideChar :=
  .char '@' :: t.tag.toList.map .char ++ (t.name.getD "").toList ++ t.content.toList

namespace DocComment

/-- **The tag of a block has its word, and all of the block but blanks.** -/
theorem BeginsTag.readTag {block word rest : List WideChar} (h : BeginsTag block word rest) :
    (readTag block).tag.toList.map .char = word ∧ inked (readTag block).parts = inked block := by
  have hword := toList_toString_of_isWord h.isWord
  have hsign : inked (.char '@' :: word) = .char '@' :: word := by
    refine inked_of_not_blank fun c hc => ?_
    rcases List.mem_cons.1 hc with rfl | hc
    · decide
    · exact isBlank_of_isWordChar (h.isWord c hc)
  have hblock : inked block = .char '@' :: word ++ inked rest := by
    obtain ⟨blanks, hblanks, rfl⟩ := h.text_eq
    rw [← List.cons_append, inked_append, inked_append, inked_of_blank hblanks, hsign, List.nil_append]
  rw [DocComment.readTag, splitTag?_eq_some_iff.2 h, hblock]
  simp only [Option.getD_some]
  split
  · refine ⟨hword, ?_⟩
    have hrest := splitWord_append (trim rest)
    rw [BlockTag.parts, hword, inked_append, inked_append, hsign, Option.getD_some, inked_trim,
      List.append_assoc, ← inked_append, hrest, inked_trim]
  · refine ⟨hword, ?_⟩
    rw [BlockTag.parts, hword, Option.getD_none, inked_append, inked_append, hsign, inked_trim]
    exact congrArg (· ++ inked rest) (List.append_nil _)

/-! ### Lines and blocks -/

/-- Each line that begins with a tag opens a block. -/
theorem forall₂_groupLines (lines : List (List WideChar)) :
    List.Forall₂ (fun line block => StartsTag line ∧ ∃ more, block = line :: more)
      (lines.filter fun line => StartsTag line) (groupLines lines).2 := by
  induction lines with
  | nil => exact .nil
  | cons line lines ih =>
    simp only [groupLines, opensBlock_iff]
    by_cases hopens : StartsTag line
    · rw [List.filter_cons_of_pos (by simpa using hopens), if_pos hopens]
      exact .cons ⟨hopens, _, rfl⟩ ih
    · rw [List.filter_cons_of_neg (by simpa using hopens), if_neg hopens]
      exact ih

/-- **The lines in front of the blocks and the blocks have all of the lines but blanks.** -/
theorem inked_groupLines (lines : List (List WideChar)) :
    inked (groupLines lines).1.flatten ++ (groupLines lines).2.flatMap (inked ·.flatten) =
      inked lines.flatten := by
  induction lines with
  | nil => rfl
  | cons line lines ih =>
    rw [List.flatten_cons, inked_append, ← ih]
    simp only [groupLines]
    split
    · rw [List.flatMap_cons, List.flatten_cons, inked_append, inked_flatten_map_trimLeft,
        List.append_assoc]
      rfl
    · rw [List.flatten_cons, inked_append, List.append_assoc]

/-- The tags of blocks have all of the blocks but blanks. -/
theorem inked_tags {blocks : List (List (List WideChar))}
    (h : ∀ block ∈ blocks, splitTag? (Text.joinLines block) ≠ none) :
    inked ((blocks.map fun block => DocComment.readTag (Text.joinLines block)).flatMap BlockTag.parts) =
      blocks.flatMap (inked ·.flatten) := by
  induction blocks with
  | nil => rfl
  | cons block blocks ih =>
    obtain ⟨hblock, hblocks⟩ := List.forall_mem_cons.1 h
    obtain ⟨⟨word, rest⟩, hsplit⟩ := Option.ne_none_iff_exists'.1 hblock
    have htag := (splitTag?_eq_some_iff.1 hsplit).readTag.2
    rw [List.map_cons, List.flatMap_cons, List.flatMap_cons, inked_append, ih hblocks, htag,
      inked_joinLines]

theorem read_eq (raw : WideString) :
    let grouped := groupLines (cleanLines (stripDelimiters raw.toList))
    read raw = ⟨⟨trim (Text.joinLines grouped.1)⟩,
      grouped.2.map fun block => DocComment.readTag (Text.joinLines block)⟩ := by
  unfold read
  generalize groupLines (cleanLines (stripDelimiters raw.toList)) = grouped
  rfl

/-- **Reading a comment loses nothing, doubles nothing and changes no order.**  Every block begins with
a tag, so that none fails to be read.  Each line that begins with a tag gives one tag with the word of
the line.  And the description and the tags, one behind the other, have the characters of the lines, but
for blanks. -/
theorem read_conserves (raw : WideString) :
    (∀ block ∈ (groupLines (cleanLines (stripDelimiters raw.toList))).2,
      splitTag? (Text.joinLines block) ≠ none) ∧
    List.Forall₂ (fun line t => ∃ rest, BeginsTag line (t.tag.toList.map .char) rest)
      ((cleanLines (stripDelimiters raw.toList)).filter fun line => StartsTag line)
      (read raw).tags ∧
    inked ((read raw).description.toList ++ (read raw).tags.flatMap BlockTag.parts) =
      inked (cleanLines (stripDelimiters raw.toList)).flatten := by
  have hblocks : ∀ block ∈ (groupLines (cleanLines (stripDelimiters raw.toList))).2,
      splitTag? (Text.joinLines block) ≠ none := fun block hblock => splitTag?_block hblock
  refine ⟨hblocks, ?_, ?_⟩
  · simp only [read_eq, List.forall₂_map_right_iff]
    refine (forall₂_groupLines _).imp ?_
    rintro line _ ⟨hline, more, rfl⟩
    obtain ⟨⟨word, rest⟩, hsplit⟩ := Option.isSome_iff_exists.1 (opensBlock_iff.2 hline)
    have hbegins := splitTag?_eq_some_iff.1 hsplit
    rw [(hbegins.joinLines more).readTag.1]
    exact ⟨rest, hbegins⟩
  · rw [inked_append, ← inked_groupLines, ← inked_tags hblocks, read_eq,
      inked_trim, inked_joinLines]

end DocComment

end SourceDoc
