import SourceDoc.Proofs.Comment.Blocks
import SourceDoc.Proofs.Text.CodePoints
import SourceDoc.Proofs.Text.Trimmed

/-!
# The layout of a comment

A comment in normal form can be written down: its lines stand between the delimiters, each behind an
indent of its own, a star and a space (`layout`).  Reading such a text gives the comment back,
whatever the indents are (`read_layout`).
-/

namespace SourceDoc

open SourceDoc.Text

/-! ### Normal forms -/

namespace DocComment

/-- The lines of a text that has no line breaks but line feeds. -/
def feedLines (text : List WideChar) : List (List WideChar) := text.splitOn (.char '\n')

/-- A text without line breaks other than line feeds. -/
def FeedsOnly (text : List WideChar) : Prop :=
  ∀ c ∈ text, c.satisfies isLineBreak = true → c = .char '\n'

/-- A line that begins with a tag: after its blanks come an at sign and a character of a word. -/
def StartsTag (line : List WideChar) : Prop :=
  ∃ blanks c rest, (∀ b ∈ blanks, isBlank b = true) ∧ c.satisfies isWordChar = true ∧
    line = blanks ++ .char '@' :: c :: rest

/-- A space and a text, or nothing if the text is empty. -/
def spaced (text : List WideChar) : List WideChar :=
  if text = [] then [] else .char ' ' :: text

end DocComment

open DocComment

/-- What a block tag looks like after it was read: a word, a name without blanks where the tag has
one, and a trimmed content, in which no line begins with a tag again. -/
structure BlockTag.IsNormal (t : BlockTag) : Prop where
  ne_empty : t.tag ≠ ""
  word : ∀ c ∈ t.tag.toList, isWordChar c = true
  named : t.tag ∈ namedTags → ∃ name, t.name = some name ∧
    (∀ c ∈ name.toList, isBlank c = false) ∧ (name = "" → t.content = "")
  unnamed : t.tag ∉ namedTags → t.name = none
  feedsOnly : FeedsOnly t.content.toList
  trimmed : trim t.content.toList = t.content.toList
  trimmed_line : ∀ line ∈ feedLines t.content.toList, trim line = line
  not_startsTag : ∀ line ∈ (feedLines t.content.toList).tail, ¬ StartsTag line

/-- What a comment looks like after it was read: a trimmed description in which no line begins with
a tag, and tags in normal form. -/
structure DocComment.IsNormal (comment : DocComment) : Prop where
  feedsOnly : FeedsOnly comment.description.toList
  trimmed : trim comment.description.toList = comment.description.toList
  trimmed_line : ∀ line ∈ feedLines comment.description.toList, trimRight line = line
  not_startsTag : ∀ line ∈ feedLines comment.description.toList, ¬ StartsTag line
  tags : ∀ t ∈ comment.tags, t.IsNormal

/-! ### Writing -/

/-- The first line of a tag up to its content: an at sign, the word and the name. -/
def BlockTag.heading (t : BlockTag) : List WideChar :=
  .char '@' :: t.tag.toList.map .char ++ spaced (t.name.getD "").toList

/-- The first line of a tag: the heading, and the first line of the content behind it. -/
def BlockTag.firstLine (t : BlockTag) : List WideChar :=
  t.heading ++ spaced ((feedLines t.content.toList).headD [])

/-- The lines of a tag. -/
def BlockTag.lines (t : BlockTag) : List (List WideChar) :=
  t.firstLine :: (feedLines t.content.toList).tail

namespace DocComment

/-- The lines of a comment are those of the description and those of the tags.  An empty description
has one empty line or none. -/
def WrittenOn (comment : DocComment) (lines : List (List WideChar)) : Prop :=
  ∃ lead, (lead = feedLines comment.description.toList ∨ comment.description = "" ∧ lead = []) ∧
    lines = lead ++ comment.tags.flatMap BlockTag.lines

/-- Blanks in front of a line. -/
def IsIndent (blanks : List WideChar) : Prop :=
  (∀ c ∈ blanks, isBlank c = true) ∧ IsLine blanks

/-- A line of a comment: an indent, a star, a space and the text of the line. -/
def starred (indent line : List WideChar) : List WideChar :=
  indent ++ .char '*' :: .char ' ' :: line

/-- The text of a comment: the delimiters, and between them the lines, each behind its indent.  The
last indent stands in front of the closing delimiter. -/
def layout (written : List (List WideChar × List WideChar)) (last : List WideChar) : WideString :=
  ⟨(WideString.ofString "/**").toList ++
    (.char '\n' :: (written.map fun w => starred w.1 w.2).flatMap (· ++ [.char '\n']) ++ last) ++
    (WideString.ofString "*/").toList⟩

/-! ### Characters of words -/

/-- No character of a word is blank. -/
theorem isBlank_of_isWordChar {c : WideChar} (h : c.satisfies isWordChar = true) :
    isBlank c = false := by
  cases c with
  | surrogate index => rfl
  | char c =>
    have hblanks : ∀ n ∈ blankCodes, isWordChar (Char.ofNat n) = false := by decide +kernel
    exact isBlankChar_eq_false hblanks h

/-- A text without blanks is on one line. -/
theorem isLine_of_not_blank {text : List WideChar} (h : ∀ c ∈ text, isBlank c = false) :
    IsLine text := by
  intro c hc
  refine Bool.eq_false_iff.2 fun hbreak => ?_
  exact absurd (isBlank_of_isLineBreak hbreak) (by rw [h c hc]; decide)

/-! ### Lines of a text -/

theorem joinLines_feedLines (text : List WideChar) : joinLines (feedLines text) = text :=
  List.intercalate_splitOn (WideChar.char '\n')

theorem feedLines_nil : feedLines [] = [[]] := List.splitOn_nil (WideChar.char '\n')

theorem feedLines_ne_nil (text : List WideChar) : feedLines text ≠ [] :=
  List.splitOn_ne_nil (WideChar.char '\n') text

theorem headD_cons_tail_feedLines (text : List WideChar) :
    (feedLines text).headD [] :: (feedLines text).tail = feedLines text := by
  cases h : feedLines text with
  | nil => exact absurd h (feedLines_ne_nil text)
  | cons line lines => rfl

theorem headD_mem_feedLines (text : List WideChar) :
    (feedLines text).headD [] ∈ feedLines text := by
  have hcons := headD_cons_tail_feedLines text
  rw [← hcons]
  exact List.mem_cons_self

/-- A character of a line is one of the text, and it is not the line feed. -/
theorem mem_of_mem_feedLines {text line : List WideChar} (h : line ∈ feedLines text) {c : WideChar}
    (hc : c ∈ line) : c ∈ text ∧ c ≠ .char '\n' := by
  induction text generalizing line with
  | nil =>
    rw [feedLines, List.splitOn_nil, List.mem_singleton] at h
    rw [h] at hc
    cases hc
  | cons d text ih =>
    rw [feedLines, List.splitOn_cons_eq_if_modifyHead] at h
    by_cases hd : (d == .char '\n') = true
    · rw [if_pos hd] at h
      rcases List.mem_cons.1 h with rfl | h
      · cases hc
      · exact ⟨List.mem_cons_of_mem d (ih h hc).1, (ih h hc).2⟩
    · rw [if_neg hd] at h
      cases hlines : text.splitOn (.char '\n') with
      | nil => exact absurd hlines (List.splitOn_ne_nil (.char '\n') text)
      | cons first lines =>
        have ih' : ∀ line ∈ first :: lines, c ∈ line → c ∈ text ∧ c ≠ .char '\n' := by
          rw [← hlines]
          exact fun line hline => ih hline
        rw [hlines, List.modifyHead_cons] at h
        rcases List.mem_cons.1 h with rfl | h
        · rcases List.mem_cons.1 hc with rfl | hc
          · exact ⟨List.mem_cons_self, fun heq => hd (beq_iff_eq.2 heq)⟩
          · obtain ⟨hmem, hfeed⟩ := ih' first List.mem_cons_self hc
            exact ⟨List.mem_cons_of_mem d hmem, hfeed⟩
        · obtain ⟨hmem, hfeed⟩ := ih' line (List.mem_cons_of_mem first h) hc
          exact ⟨List.mem_cons_of_mem d hmem, hfeed⟩

/-- No line goes on behind a line break. -/
theorem isLine_of_mem_feedLines {text line : List WideChar} (htext : FeedsOnly text)
    (h : line ∈ feedLines text) : IsLine line := by
  intro c hc
  obtain ⟨hmem, hfeed⟩ := mem_of_mem_feedLines h hc
  exact Bool.eq_false_iff.2 fun hbreak => hfeed (htext c hmem hbreak)

/-! ### Delimiters and stars -/

/-- The delimiters around a text are taken away, and nothing else. -/
theorem stripDelimiters_delimited (inner : List WideChar) :
    stripDelimiters ((WideString.ofString "/**").toList ++ inner ++
      (WideString.ofString "*/").toList) = inner := by
  set raw := (WideString.ofString "/**").toList ++ inner ++ (WideString.ofString "*/").toList
  have htrim : trim raw = raw := by
    refine trim_eq_self_iff.2 ⟨?_, ?_⟩
    · intro c hc
      obtain rfl : .char '/' = c := Option.some.inj hc
      decide
    · intro c hc
      rw [List.getLast?_append] at hc
      obtain rfl : .char '/' = c := Option.some.inj hc
      decide
  have hfront : (WideString.ofString "/**").toList.isPrefixOf raw = true := by
    rw [List.isPrefixOf_iff_prefix]
    exact ⟨inner ++ (WideString.ofString "*/").toList, (List.append_assoc _ _ _).symm⟩
  have hsuffix : (WideString.ofString "*/").toList.isSuffixOf (raw.drop 3) = true := by
    rw [List.isSuffixOf_iff_suffix]
    exact ⟨inner, rfl⟩
  have hdrop : raw.drop 3 = inner ++ (WideString.ofString "*/").toList := rfl
  have hlength : (raw.drop 3).length - 2 = inner.length := by
    rw [hdrop, List.length_append]
    rfl
  simp only [stripDelimiters, htrim, if_pos hfront, if_pos hsuffix, hlength]
  rw [hdrop, List.take_left]

/-- The star, the indent in front of it and the space behind it do not count. -/
theorem cleanLine_starred {indent : List WideChar} (hindent : ∀ c ∈ indent, isBlank c = true)
    (line : List WideChar) : cleanLine (starred indent line) = trimRight line := by
  have htrim : trimLeft (starred indent line) = .char '*' :: .char ' ' :: line := by
    rw [starred, trimLeft_append_of_blank hindent]
    rfl
  rw [cleanLine, htrim]
  rfl

theorem cleanLine_of_blank {blanks : List WideChar} (h : ∀ c ∈ blanks, isBlank c = true) :
    cleanLine blanks = [] := by
  have htrim : trimLeft blanks = [] := List.dropWhile_eq_nil_iff.2 h
  rw [cleanLine, htrim]
  exact trimRight_of_blank h

theorem isLine_starred {indent line : List WideChar} (hindent : IsLine indent)
    (hline : IsLine line) : IsLine (starred indent line) := by
  refine hindent.append fun c hc => ?_
  rcases List.mem_cons.1 hc with rfl | hc
  · decide
  · rcases List.mem_cons.1 hc with rfl | hc
    · decide
    · exact hline c hc

/-- The lines of a laid out comment, but for the empty ones at its ends. -/
theorem cleanLines_layout {written : List (List WideChar × List WideChar)} {last : List WideChar}
    (hindent : ∀ w ∈ written, IsIndent w.1) (hlast : IsIndent last)
    (hline : ∀ w ∈ written, IsLine w.2 ∧ trimRight w.2 = w.2)
    {empty lines : List (List WideChar)} (hwritten : written.map (·.2) = empty ++ lines)
    (hempty : ∀ line ∈ empty, line = []) (hframed : Framed lines) :
    cleanLines (stripDelimiters (layout written last).toList) = lines := by
  have hclean : (written.map fun w => starred w.1 w.2).map cleanLine = empty ++ lines := by
    rw [← hwritten, List.map_map]
    refine List.map_congr_left fun w hw => ?_
    rw [Function.comp_apply, cleanLine_starred (hindent w hw).1, (hline w hw).2]
  have hback : ∀ line ∈ (splitLines last).map cleanLine, line = [] := by
    intro line hmem
    by_cases hne : last = []
    · rw [hne] at hmem
      cases hmem
    · rw [splitLines_of_isLine hlast.2 hne, List.map_singleton, List.mem_singleton] at hmem
      rw [hmem, cleanLine_of_blank hlast.1]
  have hsplit : (splitLines (stripDelimiters (layout written last).toList)).map cleanLine =
      ([] :: empty) ++ lines ++ (splitLines last).map cleanLine := by
    have hfirst (rest : List WideChar) : splitLines (.char '\n' :: rest) = [] :: splitLines rest :=
      rfl
    rw [layout, stripDelimiters_delimited, List.cons_append, hfirst, splitLines_flatMap_append,
      List.map_cons, List.map_append, hclean]
    · rfl
    · intro line hmem
      obtain ⟨w, hw, rfl⟩ := List.mem_map.1 hmem
      exact isLine_starred (hindent w hw).2 (hline w hw).1
  rw [cleanLines, hsplit]
  refine dropEmpty_framed hframed (fun line hmem => ?_) hback
  rcases List.mem_cons.1 hmem with rfl | hmem
  · rfl
  · exact hempty line hmem

/-! ### Blocks -/

/-- The lines that open a block are those that begin with a tag. -/
theorem opensBlock_iff {line : List WideChar} : opensBlock line = true ↔ StartsTag line := by
  rw [opensBlock, Option.isSome_iff_ne_none, splitTag?_ne_none_iff]
  constructor
  · rintro ⟨c, rest, htrim, hc⟩
    refine ⟨line.takeWhile isBlank, c, rest, fun b hb => List.mem_takeWhile_imp hb, hc, ?_⟩
    rw [← htrim, trimLeft, List.takeWhile_append_dropWhile]
  · rintro ⟨blanks, c, rest, hblanks, hc, rfl⟩
    refine ⟨c, rest, ?_, hc⟩
    rw [trimLeft_append_of_blank hblanks]
    rfl

instance (line : List WideChar) : Decidable (StartsTag line) :=
  decidable_of_iff _ opensBlock_iff

/-- Lines that open no block belong to the lines in front of the first one. -/
theorem groupLines_append {lead : List (List WideChar)} (h : ∀ line ∈ lead, ¬ StartsTag line)
    (rest : List (List WideChar)) :
    groupLines (lead ++ rest) = (lead ++ (groupLines rest).1, (groupLines rest).2) := by
  induction lead with
  | nil => rfl
  | cons line lead ih =>
    have hopens : ¬ opensBlock line = true := by
      rw [opensBlock_iff]
      exact h line List.mem_cons_self
    rw [List.cons_append, groupLines, ih fun l hl => h l (List.mem_cons_of_mem line hl)]
    simp only [if_neg hopens, List.cons_append]

/-! ### One tag -/

/-- What stands behind the word of a tag is empty or begins with a space. -/
theorem spaced_cases (text : List WideChar) :
    text = [] ∧ spaced text = [] ∨ text ≠ [] ∧ spaced text = .char ' ' :: text := by
  by_cases h : text = []
  · exact .inl ⟨h, if_pos h⟩
  · exact .inr ⟨h, if_neg h⟩

theorem isLine_spaced {text : List WideChar} (h : IsLine text) : IsLine (spaced text) := by
  rcases spaced_cases text with ⟨rfl, hs⟩ | ⟨-, hs⟩
  · rw [hs]
    exact h
  · rw [hs]
    intro c hc
    rcases List.mem_cons.1 hc with rfl | hc
    · decide
    · exact h c hc

/-- The last character is that of the last text that is not empty. -/
theorem mem_getLast?_append_spaced {a b : List WideChar} {c : WideChar}
    (h : c ∈ (a ++ spaced b).getLast?) : c ∈ b.getLast? ∨ c ∈ a.getLast? := by
  rcases spaced_cases b with ⟨-, hs⟩ | ⟨hne, hs⟩
  · rw [hs, List.append_nil] at h
    exact .inr h
  · rw [hs, List.getLast?_append, List.getLast?_cons_of_ne_nil hne, Option.mem_def,
      Option.or_eq_some_iff] at h
    rcases h with h | ⟨-, h⟩
    · exact .inl h
    · exact .inr h

theorem trim_spaced {text : List WideChar} (h : trim text = text) : trim (spaced text) = text := by
  rcases spaced_cases text with ⟨rfl, hs⟩ | ⟨-, hs⟩
  · rw [hs, h]
  · rw [hs]
    -- the space is the only blank in front
    exact h

/-- The word of a tag ends where a space or nothing follows it. -/
theorem splitTag?_word {word after : List WideChar} (hne : word ≠ [])
    (hword : ∀ c ∈ word, c.satisfies isWordChar = true)
    (hafter : ∀ c ∈ after.head?, c = .char ' ') :
    splitTag? (.char '@' :: word ++ after) = some (word, after) := by
  refine splitTag?_eq_some_iff.2 ⟨hne, hword, fun c hc => ?_, [], by simp, rfl⟩
  rw [hafter c hc]
  decide +kernel

/-- What follows the word of a tag. -/
theorem eq_space_of_mem_head? {name content : List WideChar} {c : WideChar}
    (h : c ∈ (spaced name ++ spaced content).head?) : c = .char ' ' := by
  rcases spaced_cases name with ⟨-, hname⟩ | ⟨-, hname⟩
  · rw [hname, List.nil_append] at h
    rcases spaced_cases content with ⟨-, hcontent⟩ | ⟨-, hcontent⟩
    · rw [hcontent] at h
      cases h
    · rw [hcontent] at h
      exact (Option.some.inj h).symm
  · rw [hname] at h
    exact (Option.some.inj h).symm

/-- The name in front of a content is its first word. -/
theorem splitWord_spaced {name content : List WideChar} (hname : ∀ c ∈ name, isBlank c = false)
    (hcontent : trim content = content) (hempty : name = [] → content = []) :
    splitWord (trim (spaced name ++ spaced content)) = (name, spaced content) := by
  rcases spaced_cases name with ⟨hnil, hs⟩ | ⟨hne, hs⟩
  · rw [hnil, hempty hnil]
    rfl
  have hlast : ∀ c ∈ (name ++ spaced content).getLast?, isBlank c = false := by
    intro c hc
    rcases mem_getLast?_append_spaced hc with hc | hc
    · exact (trim_eq_self_iff.1 hcontent).2 c hc
    · exact hname c (List.mem_of_getLast? hc)
  have htrim : trim (spaced name ++ spaced content) = name ++ spaced content := by
    rw [hs]
    -- behind the space the text is trimmed
    show trim (name ++ spaced content) = _
    refine trim_eq_self_iff.2 ⟨fun c hc => ?_, hlast⟩
    rw [List.head?_append_of_ne_nil name hne] at hc
    exact hname c (List.mem_of_mem_head? hc)
  have hword : ∀ c ∈ name, (!isBlank c) = true := fun c hc => by rw [hname c hc]; rfl
  have hstop : (spaced content).takeWhile (!isBlank ·) = [] ∧
      (spaced content).dropWhile (!isBlank ·) = spaced content := by
    rcases spaced_cases content with ⟨-, hcs⟩ | ⟨-, hcs⟩ <;> rw [hcs] <;> exact ⟨rfl, rfl⟩
  rw [htrim, splitWord, List.span_eq_takeWhile_dropWhile, List.takeWhile_append_of_pos hword,
    List.dropWhile_append_of_pos hword, hstop.1, hstop.2, List.append_nil]

end DocComment

namespace BlockTag

variable {t : BlockTag}

/-- The characters of the word of a tag. -/
theorem IsNormal.satisfies_word (h : t.IsNormal) :
    ∀ c ∈ t.tag.toList.map WideChar.char, c.satisfies isWordChar = true := by
  intro c hc
  obtain ⟨d, hd, rfl⟩ := List.mem_map.1 hc
  exact h.word d hd

theorem IsNormal.word_ne_nil (h : t.IsNormal) : t.tag.toList.map WideChar.char ≠ [] := by
  intro hnil
  exact h.ne_empty (String.toList_eq_nil_iff.1 (List.map_eq_nil_iff.1 hnil))

/-- A content begins and ends with lines that are not empty. -/
theorem IsNormal.framed_content (h : t.IsNormal) (hne : t.content.toList ≠ []) :
    Framed (feedLines t.content.toList) := by
  apply framed_of_joinLines
  · rw [joinLines_feedLines, h.trimmed]
  · rwa [joinLines_feedLines]

/-- A content whose first line is empty is empty. -/
theorem IsNormal.content_eq_nil (h : t.IsNormal)
    (hfirst : (feedLines t.content.toList).headD [] = []) : t.content.toList = [] := by
  by_contra hne
  have hframed := h.framed_content hne
  rw [← headD_cons_tail_feedLines t.content.toList, hfirst] at hframed
  exact hframed.1 [] rfl rfl

/-- The lines of a tag are its heading and its content. -/
theorem IsNormal.joinLines_lines (h : t.IsNormal) :
    joinLines t.lines = t.heading ++ spaced t.content.toList := by
  have hcons := headD_cons_tail_feedLines t.content.toList
  rw [lines, firstLine]
  rcases spaced_cases ((feedLines t.content.toList).headD []) with ⟨hfirst, hs⟩ | ⟨hfirst, hs⟩
  · rw [hs, h.content_eq_nil hfirst, feedLines_nil, List.append_nil]
    exact (joinLines_singleton t.heading).trans (List.append_nil t.heading).symm
  · have hcontent : t.content.toList ≠ [] := by
      intro hnil
      rw [hnil, feedLines_nil] at hfirst
      exact hfirst rfl
    have hspace := joinLines_append_cons [.char ' '] ((feedLines t.content.toList).headD [])
      (feedLines t.content.toList).tail
    rw [hcons, joinLines_feedLines] at hspace
    rw [hs, joinLines_append_cons, spaced, if_neg hcontent]
    exact congrArg (t.heading ++ ·) hspace

/-- A tag is read back from its lines. -/
theorem IsNormal.readTag_lines (h : t.IsNormal) : readTag (joinLines t.lines) = t := by
  have hsplit : splitTag? (joinLines t.lines) = some (t.tag.toList.map .char,
      spaced (t.name.getD "").toList ++ spaced t.content.toList) := by
    rw [h.joinLines_lines, heading, List.append_assoc]
    exact splitTag?_word h.word_ne_nil h.satisfies_word fun c hc => eq_space_of_mem_head? hc
  have htag : (WideString.ofList (t.tag.toList.map .char)).toString = t.tag :=
    WideString.toString_ofString t.tag
  rw [readTag, hsplit]
  simp only [Option.getD_some, htag]
  by_cases hnamed : t.tag ∈ namedTags
  · obtain ⟨name, hname, hblank, hempty⟩ := h.named hnamed
    have hempty' : name.toList = [] → t.content.toList = [] := fun hnil => by
      rw [hempty (congrArg WideString.ofList hnil)]
      rfl
    rw [if_pos (List.contains_iff_mem.2 hnamed), hname, Option.getD_some,
      splitWord_spaced hblank h.trimmed hempty']
    simp only [trim_spaced h.trimmed]
    rw [← hname]
  · have hname := h.unnamed hnamed
    rw [if_neg (fun hmem => hnamed (List.contains_iff_mem.1 hmem)), hname]
    have htrim : trim (spaced t.content.toList) = t.content.toList := trim_spaced h.trimmed
    show BlockTag.mk t.tag none ⟨trim (spaced t.content.toList)⟩ = t
    rw [htrim, ← hname]

/-- A tag begins with a line that opens a block. -/
theorem IsNormal.opensBlock_firstLine (h : t.IsNormal) : opensBlock t.firstLine = true := by
  have hsplit := splitTag?_word h.word_ne_nil h.satisfies_word
    fun c (hc : c ∈ (spaced (t.name.getD "").toList ++
      spaced ((feedLines t.content.toList).headD [])).head?) => eq_space_of_mem_head? hc
  rw [opensBlock, firstLine, heading, List.append_assoc, hsplit]
  rfl

/-- The at sign and the word have no blanks. -/
theorem IsNormal.not_blank_word (h : t.IsNormal) :
    ∀ c ∈ .char '@' :: t.tag.toList.map WideChar.char, isBlank c = false := by
  intro c hc
  rcases List.mem_cons.1 hc with rfl | hc
  · decide
  · exact isBlank_of_isWordChar (h.satisfies_word c hc)

/-- The name of a tag has no blanks. -/
theorem IsNormal.not_blank_name (h : t.IsNormal) :
    ∀ c ∈ (t.name.getD "").toList, isBlank c = false := by
  by_cases hnamed : t.tag ∈ namedTags
  · obtain ⟨name, hname, hblank, -⟩ := h.named hnamed
    rw [hname]
    exact hblank
  · rw [h.unnamed hnamed]
    intro c hc
    cases hc

/-- The first line of a tag is one line, which ends in the first line of the content, the name or
the word. -/
theorem IsNormal.isLine_firstLine (h : t.IsNormal) :
    IsLine t.firstLine ∧ trimRight t.firstLine = t.firstLine := by
  have hcontent := h.trimmed_line _ (headD_mem_feedLines _)
  constructor
  · have hname := isLine_spaced (isLine_of_not_blank h.not_blank_name)
    have hfirst := isLine_spaced (isLine_of_mem_feedLines h.feedsOnly (headD_mem_feedLines _))
    exact ((isLine_of_not_blank h.not_blank_word).append hname).append hfirst
  · refine trimRight_eq_self_iff.2 fun c hc => ?_
    rcases mem_getLast?_append_spaced hc with hc | hc
    · exact (trim_eq_self_iff.1 hcontent).2 c hc
    rcases mem_getLast?_append_spaced hc with hc | hc
    · exact h.not_blank_name c (List.mem_of_getLast? hc)
    · exact h.not_blank_word c (List.mem_of_getLast? hc)

/-- The lines of a tag have no blanks at their ends. -/
theorem IsNormal.isLine_of_mem_lines (h : t.IsNormal) {line : List WideChar}
    (hline : line ∈ t.lines) : IsLine line ∧ trimRight line = line := by
  rcases List.mem_cons.1 hline with rfl | hline
  · exact h.isLine_firstLine
  · have hmem := List.mem_of_mem_tail hline
    have htrim := trim_eq_self_iff.1 (h.trimmed_line line hmem)
    exact ⟨isLine_of_mem_feedLines h.feedsOnly hmem, trimRight_eq_self_iff.2 htrim.2⟩

/-- The lines of a tag begin and end with lines that are not empty. -/
theorem IsNormal.framed_lines (h : t.IsNormal) : Framed t.lines := by
  have hfirst : t.firstLine ≠ [] := by
    rw [firstLine, heading]
    simp
  have hcons := headD_cons_tail_feedLines t.content.toList
  constructor
  · intro line hline
    obtain rfl : t.firstLine = line := Option.some.inj hline
    exact hfirst
  · intro line hline
    by_cases htail : (feedLines t.content.toList).tail = []
    · rw [lines, htail] at hline
      obtain rfl : t.firstLine = line := Option.some.inj hline
      exact hfirst
    · have hframed : Framed (feedLines t.content.toList) := by
        apply h.framed_content
        intro hnil
        rw [hnil, feedLines_nil] at htail
        exact htail rfl
      rw [← hcons, Framed, List.getLast?_cons_of_ne_nil htail] at hframed
      rw [lines, List.getLast?_cons_of_ne_nil htail] at hline
      exact hframed.2 line hline

end BlockTag

namespace DocComment

/-- The lines of tags are the blocks. -/
theorem groupLines_tags {tags : List BlockTag} (h : ∀ t ∈ tags, t.IsNormal) :
    groupLines (tags.flatMap BlockTag.lines) = ([], tags.map BlockTag.lines) := by
  induction tags with
  | nil => rfl
  | cons t tags ih =>
    have ht := h t List.mem_cons_self
    have hkept : (feedLines t.content.toList).tail.map trimLeft =
        (feedLines t.content.toList).tail := by
      refine (List.map_congr_left fun line hline => ?_).trans (List.map_id _)
      have htrim := ht.trimmed_line line (List.mem_of_mem_tail hline)
      exact trimLeft_eq_self_iff.2 (trim_eq_self_iff.1 htrim).1
    rw [List.flatMap_cons, BlockTag.lines, List.cons_append, groupLines,
      groupLines_append ht.not_startsTag, ih fun u hu => h u (List.mem_cons_of_mem t hu)]
    simp only [List.append_nil, if_pos ht.opensBlock_firstLine, hkept]
    rfl

/-- The lines of the description: empty ones in front of those that are kept. -/
theorem IsNormal.exists_lead {comment : DocComment} (h : comment.IsNormal)
    {lead : List (List WideChar)}
    (hlead : lead = feedLines comment.description.toList ∨ comment.description = "" ∧ lead = []) :
    ∃ empty kept, lead = empty ++ kept ∧ (∀ line ∈ empty, line = []) ∧ Framed kept ∧
      joinLines kept = comment.description.toList ∧ ∀ line ∈ kept, ¬ StartsTag line := by
  by_cases hdesc : comment.description.toList = []
  · refine ⟨lead, [], (List.append_nil lead).symm, ?_, ⟨by simp, by simp⟩, hdesc.symm, by simp⟩
    rcases hlead with rfl | ⟨-, rfl⟩
    · rw [hdesc, feedLines_nil]
      simp
    · simp
  · rcases hlead with rfl | ⟨hnil, -⟩
    · have hjoin := joinLines_feedLines comment.description.toList
      refine ⟨[], feedLines comment.description.toList, rfl, by simp, framed_of_joinLines ?_ ?_,
        hjoin, h.not_startsTag⟩
      · rw [hjoin, h.trimmed]
      · rwa [hjoin]
    · exact absurd (by rw [hnil]; rfl) hdesc

/-- **Reading a comment in normal form from its layout gives the comment back**, whatever blanks are
in front of its lines. -/
theorem read_layout {comment : DocComment} (hcomment : comment.IsNormal)
    {written : List (List WideChar × List WideChar)} {last : List WideChar}
    (hwritten : comment.WrittenOn (written.map (·.2)))
    (hindent : ∀ w ∈ written, IsIndent w.1) (hlast : IsIndent last) :
    read (layout written last) = comment := by
  obtain ⟨lead, hlead, hlines⟩ := hwritten
  obtain ⟨empty, kept, rfl, hempty, hframed, hjoin, hkept⟩ := hcomment.exists_lead hlead
  have hline : ∀ w ∈ written, IsLine w.2 ∧ trimRight w.2 = w.2 := by
    intro w hw
    have hmem : w.2 ∈ empty ++ kept ++ comment.tags.flatMap BlockTag.lines := by
      rw [← hlines]
      exact List.mem_map_of_mem hw
    rcases List.mem_append.1 hmem with hmem | hmem
    · rcases hlead with heq | ⟨-, hnil⟩
      · rw [heq] at hmem
        exact ⟨isLine_of_mem_feedLines hcomment.feedsOnly hmem, hcomment.trimmed_line _ hmem⟩
      · rw [hnil] at hmem
        cases hmem
    · obtain ⟨t, ht, hmem⟩ := List.mem_flatMap.1 hmem
      exact (hcomment.tags t ht).isLine_of_mem_lines hmem
  have htags : Framed (comment.tags.flatMap BlockTag.lines) :=
    framed_flatMap fun t ht => (hcomment.tags t ht).framed_lines
  rw [List.append_assoc] at hlines
  have hclean := cleanLines_layout hindent hlast hline hlines hempty (hframed.append htags)
  have hread : comment.tags.map (fun t => readTag (joinLines t.lines)) = comment.tags := by
    refine (List.map_congr_left fun t ht => ?_).trans (List.map_id _)
    exact (hcomment.tags t ht).readTag_lines
  rw [read, hclean, groupLines_append hkept, groupLines_tags hcomment.tags]
  simp only [List.append_nil, hjoin, hcomment.trimmed, List.map_map, Function.comp_def, hread]

/-- A description with an empty line and an indented one, a parameter described on two lines, a tag
whose name is missing, and a tag without a name whose content begins with an at sign. -/
def sampleComment : DocComment where
  description := "Sums up.\n\n  Twice."
  tags := [⟨"param", some "x", "first\nsecond"⟩, ⟨"throws", some "", ""⟩, ⟨"see", none, "@since"⟩]

/-- The lines of the sample, each with another indent. -/
def sampleLines : List (List WideChar × List WideChar) :=
  [("", "Sums up."), (" ", ""), ("\t", "  Twice."), ("   ", "@param x first"), (" \t", "second"),
    ("", "@throws"), ("  ", "@see @since")].map fun w =>
      ((WideString.ofString w.1).toList, (WideString.ofString w.2).toList)

theorem sampleComment_isNormal : sampleComment.IsNormal where
  feedsOnly := by unfold FeedsOnly; decide
  trimmed := by decide
  trimmed_line := by decide
  not_startsTag := by decide +kernel
  tags := by
    intro t ht
    rw [sampleComment, List.mem_cons, List.mem_cons, List.mem_singleton] at ht
    rcases ht with rfl | rfl | rfl
    · exact ⟨by decide, List.all_eq_true.1 (by decide +kernel),
        fun _ => ⟨"x", rfl, by decide, by decide⟩, by decide,
        by unfold FeedsOnly; decide, by decide, by decide, by decide +kernel⟩
    · exact ⟨by decide, List.all_eq_true.1 (by decide +kernel),
        fun _ => ⟨"", rfl, by decide, by decide⟩, by decide,
        by unfold FeedsOnly; decide, by decide, by decide, by decide +kernel⟩
    · exact ⟨by decide, List.all_eq_true.1 (by decide +kernel), by decide, fun _ => rfl,
        by unfold FeedsOnly; decide, by decide, by decide, by decide +kernel⟩

theorem read_layout_sample : read (layout sampleLines [.char ' ']) = sampleComment := by
  refine read_layout sampleComment_isNormal ⟨_, .inl rfl, by decide⟩ ?_ ?_
  · unfold IsIndent IsLine
    decide
  · unfold IsIndent IsLine
    decide

end DocComment

end SourceDoc
