import SourceDoc.Proofs.Comment.Conservation

/-!
# Comments line by line

What is read of a comment depends on what is left of its lines without their decoration (`ofLines`);
empty lines at the ends do not count (`ofLines_append_empty`).  A comment whose lines begin with stars
is read from the contents of its lines (`read_starred`), and lines that begin with a tag add their tags
to those of the lines in front of them (`ofLines_append`).
-/

namespace SourceDoc.DocComment

open SourceDoc.Text

/-! ### Blanks behind a text -/

theorem trim_append_of_blank {blanks : List WideChar} (h : ∀ c ∈ blanks, isBlank c = true)
    (text : List WideChar) : trim (text ++ blanks) = trim text := by
  have hback (kept : List WideChar) : trimRight (kept ++ blanks) = trimRight kept := by
    rw [trimRight, List.reverse_append, List.dropWhile_append_of_pos fun c hc =>
      h c (List.mem_reverse.1 hc)]
    rfl
  rw [trim, trim, trimLeft, List.dropWhile_append]
  split
  · rename_i hnil
    rw [List.dropWhile_eq_nil_iff.2 h, trimLeft, List.isEmpty_iff.1 hnil]
  · exact hback _

/-- An empty line behind others adds a line feed. -/
theorem joinLines_concat_nil {lines : List (List WideChar)} (h : lines ≠ []) :
    joinLines (lines ++ [[]]) = joinLines lines ++ [.char '\n'] := by
  induction lines with
  | nil => exact absurd rfl h
  | cons line lines ih =>
    cases lines with
    | nil =>
      rw [joinLines_singleton, List.singleton_append, joinLines_cons_cons, joinLines_singleton]
    | cons next lines =>
      rw [List.cons_append, List.cons_append, joinLines_cons_cons, joinLines_cons_cons,
        ← List.cons_append, ih (List.cons_ne_nil next lines), List.append_assoc, List.cons_append]

theorem trim_joinLines_concat_nil (lines : List (List WideChar)) :
    trim (joinLines (lines ++ [[]])) = trim (joinLines lines) := by
  by_cases h : lines = []
  · rw [h]
    rfl
  · rw [joinLines_concat_nil h, trim_append_of_blank (by decide)]

theorem trim_joinLines_nil_cons (lines : List (List WideChar)) :
    trim (joinLines ([] :: lines)) = trim (joinLines lines) := by
  cases lines with
  | nil => rfl
  | cons line lines =>
    rw [joinLines_cons_cons, List.nil_append, trim, trim]
    rfl

/-! ### Lines without decoration -/

/-- The comment that lines without decoration write. -/
def ofLines (lines : List (List WideChar)) : DocComment where
  description := ⟨trim (joinLines (groupLines lines).1)⟩
  tags := (groupLines lines).2.map fun block => DocComment.readTag (joinLines block)

theorem read_eq_ofLines (raw : WideString) :
    read raw = ofLines (cleanLines (stripDelimiters raw.toList)) :=
  read_eq raw

theorem not_startsTag_nil : ¬ StartsTag [] := by
  rintro ⟨blanks, c, rest, -, -, h⟩
  simp at h

theorem not_opensBlock_nil : ¬ opensBlock [] = true := by
  rw [opensBlock_iff]
  exact not_startsTag_nil

/-- A tag is known by its word and by what stands behind the word, without blanks around it. -/
theorem BeginsTag.readTag_congr {block block' word rest rest' : List WideChar}
    (h : BeginsTag block word rest) (h' : BeginsTag block' word rest') (htrim : trim rest = trim rest') :
    DocComment.readTag block = DocComment.readTag block' := by
  rw [DocComment.readTag, DocComment.readTag, splitTag?_eq_some_iff.2 h, splitTag?_eq_some_iff.2 h']
  simp only [Option.getD_some, htrim]

/-- An empty line at the end of a block does not change its tag. -/
theorem readTag_concat_nil {line : List WideChar} (h : opensBlock line = true)
    (more : List (List WideChar)) :
    DocComment.readTag (joinLines (line :: (more ++ [[]]))) =
      DocComment.readTag (joinLines (line :: more)) := by
  obtain ⟨⟨word, rest⟩, hsplit⟩ := Option.isSome_iff_exists.1 h
  have hbegins := splitTag?_eq_some_iff.1 hsplit
  exact (hbegins.joinLines (more ++ [[]])).readTag_congr (hbegins.joinLines more)
    (trim_joinLines_concat_nil (rest :: more))

/-- A further empty line at the end belongs to the lines in front of the first block or to the last
block, and no tag changes. -/
theorem groupLines_concat_nil (lines : List (List WideChar)) :
    ((groupLines (lines ++ [[]])).1 = (groupLines lines).1 ∨
      (groupLines (lines ++ [[]])).1 = (groupLines lines).1 ++ [[]]) ∧
    (ofLines (lines ++ [[]])).tags = (ofLines lines).tags := by
  induction lines with
  | nil =>
    rw [List.nil_append]
    simp only [ofLines, groupLines, if_neg not_opensBlock_nil]
    exact ⟨.inr rfl, trivial⟩
  | cons line lines ih =>
    obtain ⟨hlead, htags⟩ := ih
    simp only [ofLines] at htags ⊢
    simp only [List.cons_append, groupLines]
    by_cases hopens : opensBlock line = true
    · -- What stood in front of the first block is now the rest of the block that this line opens.
      simp only [if_pos hopens, List.map_cons, htags]
      refine ⟨.inl trivial, congrArg (· :: _) ?_⟩
      rcases hlead with hlead | hlead
      · rw [hlead]
      · rw [hlead, List.map_append]
        exact readTag_concat_nil hopens _
    · simp only [if_neg hopens, htags, and_true]
      rcases hlead with hlead | hlead
      · exact .inl (congrArg (line :: ·) hlead)
      · exact .inr (congrArg (line :: ·) hlead)

theorem ofLines_concat_nil (lines : List (List WideChar)) :
    ofLines (lines ++ [[]]) = ofLines lines := by
  obtain ⟨hlead, htags⟩ := groupLines_concat_nil lines
  have hdescription : (ofLines (lines ++ [[]])).description = (ofLines lines).description := by
    refine congrArg WideString.ofList ?_
    rcases hlead with hlead | hlead
    · rw [hlead]
    · rw [hlead, trim_joinLines_concat_nil]
  calc ofLines (lines ++ [[]])
      = ⟨(ofLines (lines ++ [[]])).description, (ofLines (lines ++ [[]])).tags⟩ := rfl
    _ = ⟨(ofLines lines).description, (ofLines lines).tags⟩ := by rw [hdescription, htags]

theorem ofLines_nil_cons (lines : List (List WideChar)) : ofLines ([] :: lines) = ofLines lines := by
  simp only [ofLines, groupLines, if_neg not_opensBlock_nil, trim_joinLines_nil_cons]

/-- **Empty lines behind the others do not count.** -/
theorem ofLines_append_empty (lines : List (List WideChar)) {empty : List (List WideChar)}
    (h : ∀ line ∈ empty, line = []) : ofLines (lines ++ empty) = ofLines lines := by
  induction empty generalizing lines with
  | nil => rw [List.append_nil]
  | cons line empty ih =>
    obtain ⟨rfl, hempty⟩ := List.forall_mem_cons.1 h
    rw [← List.singleton_append, ← List.append_assoc, ih (lines ++ [[]]) hempty, ofLines_concat_nil]

/-- **Empty lines in front of the others do not count.** -/
theorem ofLines_empty_append {empty : List (List WideChar)} (h : ∀ line ∈ empty, line = [])
    (lines : List (List WideChar)) : ofLines (empty ++ lines) = ofLines lines := by
  induction empty with
  | nil => rfl
  | cons line empty ih =>
    obtain ⟨rfl, hempty⟩ := List.forall_mem_cons.1 h
    rw [List.cons_append, ofLines_nil_cons, ih hempty]

theorem eq_nil_of_mem_takeWhile {lines : List (List WideChar)} :
    ∀ line ∈ lines.takeWhile List.isEmpty, line = [] :=
  fun _ hline => List.isEmpty_iff.1 (List.mem_takeWhile_imp hline)

theorem ofLines_dropWhile_isEmpty (lines : List (List WideChar)) :
    ofLines (lines.dropWhile List.isEmpty) = ofLines lines := by
  conv_rhs => rw [← List.takeWhile_append_dropWhile (p := List.isEmpty) (l := lines)]
  rw [ofLines_empty_append eq_nil_of_mem_takeWhile]

theorem ofLines_rdropWhile_isEmpty (lines : List (List WideChar)) :
    ofLines (lines.reverse.dropWhile List.isEmpty).reverse = ofLines lines := by
  have hsplit := congrArg List.reverse
    (List.takeWhile_append_dropWhile (p := List.isEmpty) (l := lines.reverse))
  rw [List.reverse_append, List.reverse_reverse] at hsplit
  conv_rhs => rw [← hsplit]
  rw [ofLines_append_empty]
  exact fun line hline => eq_nil_of_mem_takeWhile line (List.mem_reverse.1 hline)

theorem ofLines_cleanLines (body : List WideChar) :
    ofLines (cleanLines body) = ofLines ((splitLines body).map cleanLine) := by
  rw [cleanLines, ofLines_rdropWhile_isEmpty, ofLines_dropWhile_isEmpty]

/-! ### Blocks -/

/-- Lines that go on with a tag, or nothing, have nothing in front of their first block. -/
theorem groupLines_fst_eq_nil {lines : List (List WideChar)}
    (h : ∀ line ∈ lines.head?, StartsTag line) : (groupLines lines).1 = [] := by
  cases lines with
  | nil => rfl
  | cons line lines => simp only [groupLines, if_pos (opensBlock_iff.2 (h line rfl))]

theorem groupLines_append_blocks {back : List (List WideChar)} (h : (groupLines back).1 = [])
    (front : List (List WideChar)) :
    groupLines (front ++ back) =
      ((groupLines front).1, (groupLines front).2 ++ (groupLines back).2) := by
  induction front with
  | nil => exact Prod.ext h rfl
  | cons line front ih =>
    rw [List.cons_append, groupLines, groupLines, ih]
    by_cases hopens : opensBlock line = true
    · simp only [if_pos hopens, List.cons_append]
    · simp only [if_neg hopens]

/-- **Lines that begin with a tag add their tags.** -/
theorem ofLines_append (front : List (List WideChar)) {back : List (List WideChar)}
    (h : ∀ line ∈ back.head?, StartsTag line) :
    ofLines (front ++ back) =
      ⟨(ofLines front).description, (ofLines front).tags ++ (ofLines back).tags⟩ := by
  rw [ofLines, groupLines_append_blocks (groupLines_fst_eq_nil h), List.map_append]
  rfl

/-- Lines that are one block: the first begins with the tag, and no other with any. -/
def IsBlock (tag : String) (lines : List (List WideChar)) : Prop :=
  ∃ first more rest, lines = first :: more ∧ BeginsTag first (tag.toList.map .char) rest ∧
    ∀ line ∈ more, ¬ StartsTag line

theorem BeginsTag.startsTag {line word rest : List WideChar} (h : BeginsTag line word rest) :
    StartsTag line := by
  rw [← opensBlock_iff, opensBlock, splitTag?_eq_some_iff.2 h]
  rfl

theorem IsBlock.startsTag {tag : String} {lines : List (List WideChar)} (h : IsBlock tag lines)
    (behind : List (List WideChar)) : ∀ line ∈ (lines ++ behind).head?, StartsTag line := by
  obtain ⟨first, more, rest, rfl, hbegins, -⟩ := h
  intro line hline
  obtain rfl := Option.some.inj hline
  exact hbegins.startsTag

/-- **A block adds one tag**, whatever blocks stand behind it. -/
theorem IsBlock.exists_tag {tag : String} {lines : List (List WideChar)} (h : IsBlock tag lines) :
    ∃ t : BlockTag, t.tag = tag ∧ ∀ back : List (List WideChar),
      (∀ line ∈ back.head?, StartsTag line) →
        (ofLines (lines ++ back)).tags = t :: (ofLines back).tags := by
  obtain ⟨first, more, rest, rfl, hbegins, hmore⟩ := h
  have hgroup : groupLines more = (more, []) := by
    have happend := groupLines_append hmore []
    rwa [List.append_nil, groupLines, List.append_nil] at happend
  have hword := (hbegins.joinLines (more.map trimLeft)).readTag.1
  refine ⟨DocComment.readTag (joinLines (first :: more.map trimLeft)), ?_, fun back hback => ?_⟩
  · have hchars := (List.map_injective_iff.2 fun _ _ heq => WideChar.char.inj heq) hword
    exact String.toList_injective hchars
  · rw [ofLines_append _ hback, ofLines, groupLines, hgroup]
    simp only [if_pos (opensBlock_iff.2 hbegins.startsTag), List.map_cons, List.map_nil,
      List.singleton_append]

/-! ### Lines with stars -/

/-- A line break: one of the characters that end a line, or the pair of two of them. -/
inductive IsBreak : List WideChar → Prop where
  | pair : IsBreak [.char '\r', .char '\n']
  | single {c : WideChar} (h : c.satisfies isLineBreak = true) : IsBreak [c]

/-- A line of a comment that begins with a star. -/
structure StarLine where
  /-- The line break in front of the line. -/
  lineBreak : List WideChar
  /-- The blanks in front of the star. -/
  indent : List WideChar
  /-- What stands behind the star. -/
  text : List WideChar
  isBreak : IsBreak lineBreak
  isIndent : IsIndent indent
  isLine : IsLine text

namespace StarLine

/-- The line as written, without the break in front of it. -/
def written (line : StarLine) : List WideChar := line.indent ++ .char '*' :: line.text

/-- What is left of the line without its decoration. -/
def content (line : StarLine) : List WideChar := cleanLine line.written

theorem isLine_written (line : StarLine) : IsLine line.written := by
  refine line.isIndent.2.append fun c hc => ?_
  rcases List.mem_cons.1 hc with rfl | hc
  · decide
  · exact line.isLine c hc

end StarLine

/-- What may stand in front of the closing delimiter: nothing, or a line of blanks. -/
def IsClosing (closing : List WideChar) : Prop :=
  closing = [] ∨ ∃ lineBreak indent, IsBreak lineBreak ∧ IsIndent indent ∧
    closing = lineBreak ++ indent

/-- A comment of lines with stars, behind what stands next to the opening delimiter. -/
def starredComment (opening : List WideChar) (lines : List StarLine) (closing : List WideChar) :
    WideString :=
  ⟨(WideString.ofString "/**").toList ++
    (opening ++ lines.flatMap (fun line => line.lineBreak ++ line.written) ++ closing) ++
    (WideString.ofString "*/").toList⟩

/-- A text that does not begin with a line feed has its first line up to a break. -/
theorem splitLines_append_break {line lineBreak rest : List WideChar} (hline : IsLine line)
    (hbreak : IsBreak lineBreak) (hrest : rest.head? ≠ some (.char '\n')) :
    splitLines (line ++ (lineBreak ++ rest)) = line :: splitLines rest := by
  induction line with
  | nil =>
    cases hbreak with
    | pair => rfl
    | @single c hc =>
      rw [List.nil_append, List.singleton_append, splitLines.eq_3, if_pos hc]
      rintro more rfl rfl
      exact hrest rfl
  | cons c line ih =>
    exact splitLines_cons_of_not_break (hline c List.mem_cons_self)
      (ih fun d hd => hline d (List.mem_cons_of_mem c hd))

theorem head?_ne_feed_of_isLine {line rest : List WideChar} (h : IsLine line)
    (hrest : line = [] → rest.head? ≠ some (.char '\n')) :
    (line ++ rest).head? ≠ some (.char '\n') := by
  cases line with
  | nil => exact hrest rfl
  | cons c line =>
    intro hc
    obtain rfl : c = .char '\n' := Option.some.inj hc
    exact absurd (h _ List.mem_cons_self) (by decide)

theorem cleanLine_of_mem_splitLines {blanks : List WideChar} (h : IsIndent blanks) :
    ∀ line ∈ (splitLines blanks).map cleanLine, line = [] := by
  intro line hline
  by_cases hnil : blanks = []
  · rw [hnil] at hline
    cases hline
  · rw [splitLines_of_isLine h.2 hnil, List.map_singleton, List.mem_singleton] at hline
    rw [hline, cleanLine_of_blank h.1]

/-- **The lines of a comment with stars** are the opening one, those with stars, and empty ones. -/
theorem exists_cleanLines_starred {opening : List WideChar} (hopening : IsLine opening)
    (lines : List StarLine) {closing : List WideChar} (hclosing : IsClosing closing) :
    ∃ more more', (∀ line ∈ more, line = []) ∧ (∀ line ∈ more', line = []) ∧
      (splitLines (opening ++ lines.flatMap (fun line => line.lineBreak ++ line.written) ++
        closing)).map cleanLine ++ more =
          cleanLine opening :: lines.map StarLine.content ++ more' := by
  induction lines generalizing opening with
  | nil =>
    rw [List.flatMap_nil, List.append_nil]
    rcases hclosing with rfl | ⟨lineBreak, indent, hbreak, hindent, rfl⟩
    · rw [List.append_nil]
      by_cases hnil : opening = []
      · -- A text without characters has no line, not an empty one.
        rw [hnil]
        exact ⟨[[]], [], by simp, by simp, rfl⟩
      · refine ⟨[], [], by simp, by simp, ?_⟩
        rw [splitLines_of_isLine hopening hnil]
        rfl
    · have hhead : (indent ++ []).head? ≠ some (.char '\n') :=
        head?_ne_feed_of_isLine hindent.2 (by simp)
      rw [List.append_nil] at hhead
      refine ⟨[], (splitLines indent).map cleanLine, by simp, cleanLine_of_mem_splitLines hindent, ?_⟩
      rw [splitLines_append_break hopening hbreak hhead, List.append_nil]
      rfl
  | cons line lines ih =>
    obtain ⟨more, more', hmore, hmore', heq⟩ := ih line.isLine_written
    have hhead : (line.written ++ (lines.flatMap (fun line => line.lineBreak ++ line.written) ++
        closing)).head? ≠ some (.char '\n') :=
      head?_ne_feed_of_isLine line.isLine_written (by simp [StarLine.written])
    refine ⟨more, more', hmore, hmore', ?_⟩
    rw [List.flatMap_cons, List.append_assoc, List.append_assoc, List.append_assoc,
      splitLines_append_break hopening line.isBreak hhead, List.map_cons, List.map_cons,
      List.cons_append, ← List.append_assoc line.written, heq]
    rfl

/-- **A comment of lines with stars is read from the contents of its lines.** -/
theorem read_starred {opening : List WideChar} (hopening : IsLine opening) (lines : List StarLine)
    {closing : List WideChar} (hclosing : IsClosing closing) :
    read (starredComment opening lines closing) =
      ofLines (cleanLine opening :: lines.map StarLine.content) := by
  obtain ⟨more, more', hmore, hmore', heq⟩ := exists_cleanLines_starred hopening lines hclosing
  rw [read_eq_ofLines, starredComment, stripDelimiters_delimited, ofLines_cleanLines,
    ← ofLines_append_empty _ hmore, heq, ofLines_append_empty _ hmore']

end SourceDoc.DocComment
