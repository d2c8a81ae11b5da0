import SourceDoc.Model.Methods
import SourceDoc.Proofs.Comment.Starred

/-!
# Tags that do not matter to each other

The model of a method asks its comment for three kinds of tags: those of parameters, of results and of
what may be thrown.  Comments that give the same answers give the same model (`methodModel_congr`).
So a block with another tag may stand anywhere between blocks, and blocks of different kinds may stand
in either order (`extractMethod_of_unrelated_blocks`).
-/

namespace SourceDoc

open SourceDoc.Text SourceDoc.DocComment

/-! ### What is asked of a comment -/

/-- The kinds of tags that are looked for together. -/
def lookupKinds : List (List String) := [["param"], ["return"], ["throws", "exception"]]

/-- Two comments with the same description and the same tags of each kind, in the same order. -/
structure SameLookups (comment other : DocComment) : Prop where
  description : comment.description = other.description
  tagsOf : ∀ kinds ∈ lookupKinds, comment.tagsOf kinds = other.tagsOf kinds

namespace SameLookups

variable {comment other : DocComment} (h : SameLookups comment other)
include h

theorem returnDescription : comment.returnDescription = other.returnDescription := by
  rw [DocComment.returnDescription, h.tagsOf ["return"] (by decide)]
  rfl

theorem paramDescription (name : String) :
    comment.paramDescription name = other.paramDescription name := by
  rw [DocComment.paramDescription, h.tagsOf ["param"] (by decide)]
  rfl

theorem thrown : comment.thrown = other.thrown := by
  rw [DocComment.thrown, h.tagsOf ["throws", "exception"] (by decide)]
  rfl

end SameLookups

/-- **The model of a method shows nothing of its comment but what is asked of it.** -/
theorem methodModel_congr (method : SourceNode) {raw other : WideString}
    (h : SameLookups (read raw) (read other)) :
    methodModel { method with comment := some raw } =
      methodModel { method with comment := some other } := by
  have hparameters : extractParameters { method with comment := some raw } (some (read raw)) =
      extractParameters { method with comment := some other } (some (read other)) := by
    refine List.map_congr_left fun p _ => ?_
    rw [Option.bind_some, Option.bind_some, h.paramDescription]
  have hthrown : thrownBy { method with comment := some raw } (some (read raw)) =
      thrownBy { method with comment := some other } (some (read other)) := by
    rw [thrownBy, Option.map_some, h.thrown]
    rfl
  simp only [methodModel, SourceNode.doc, Option.map_some, Option.bind_some, hparameters, hthrown,
    h.description, h.returnDescription]
  rfl

/-! ### Tags in and out of order -/

variable {description : WideString} {front back : List BlockTag} {s t : BlockTag}
  {kinds : List String}

/-- A tag of none of the kinds does not count. -/
theorem tagsOf_insert (h : t.tag ∉ kinds) :
    tagsOf ⟨description, front ++ t :: back⟩ kinds = tagsOf ⟨description, front ++ back⟩ kinds := by
  have hfilter : (t :: back).filter (fun u => kinds.contains u.tag) =
      back.filter fun u => kinds.contains u.tag :=
    List.filter_cons_of_neg fun hmem => h (List.contains_iff_mem.1 hmem)
  rw [tagsOf, tagsOf, List.filter_append, List.filter_append, hfilter]

theorem tagsOf_swap_of_notMem (h : s.tag ∉ kinds) :
    tagsOf ⟨description, front ++ s :: t :: back⟩ kinds =
      tagsOf ⟨description, front ++ t :: s :: back⟩ kinds := by
  have hbehind : tagsOf ⟨description, (front ++ [t]) ++ s :: back⟩ kinds =
      tagsOf ⟨description, (front ++ [t]) ++ back⟩ kinds := tagsOf_insert h
  rw [List.append_assoc, List.append_assoc] at hbehind
  exact (tagsOf_insert h).trans hbehind.symm

/-- Of two tags that are not both of the kinds, it does not count which comes first. -/
theorem tagsOf_swap (h : ¬ (s.tag ∈ kinds ∧ t.tag ∈ kinds)) :
    tagsOf ⟨description, front ++ s :: t :: back⟩ kinds =
      tagsOf ⟨description, front ++ t :: s :: back⟩ kinds := by
  rcases not_and_or.1 h with hs | ht
  · exact tagsOf_swap_of_notMem hs
  · exact (tagsOf_swap_of_notMem ht).symm

/-- No tag is of two kinds. -/
theorem eq_of_mem_lookupKinds {g g' : List String} (hg : g ∈ lookupKinds) (hg' : g' ∈ lookupKinds)
    {tag : String} (h : tag ∈ g) (h' : tag ∈ g') : g = g' := by
  simp only [lookupKinds, List.mem_cons, List.not_mem_nil, or_false] at hg hg'
  rcases hg with rfl | rfl | rfl <;> rcases hg' with rfl | rfl | rfl <;> simp_all

/-! ### Blocks in and out of order -/

/-- A block with a tag of none of the kinds does not count. -/
theorem sameLookups_insert {tag : String} {block lines : List (List WideChar)}
    (hblock : IsBlock tag block) (htag : ∀ kinds ∈ lookupKinds, tag ∉ kinds)
    (hlines : ∀ line ∈ lines.head?, StartsTag line) (start : List (List WideChar)) :
    SameLookups (ofLines (start ++ (block ++ lines))) (ofLines (start ++ lines)) := by
  obtain ⟨t, rfl, ht⟩ := hblock.exists_tag
  rw [ofLines_append start (hblock.startsTag lines), ofLines_append start hlines, ht lines hlines]
  exact ⟨rfl, fun kinds hkinds => tagsOf_insert (htag kinds hkinds)⟩

/-- Of two blocks with tags of different kinds, it does not count which comes first. -/
theorem sameLookups_swap {g g' : List String} (hg : g ∈ lookupKinds) (hg' : g' ∈ lookupKinds)
    (hne : g ≠ g') {tag tag' : String} (htag : tag ∈ g) (htag' : tag' ∈ g')
    {block block' lines : List (List WideChar)} (hblock : IsBlock tag block)
    (hblock' : IsBlock tag' block') (hlines : ∀ line ∈ lines.head?, StartsTag line)
    (start : List (List WideChar)) :
    SameLookups (ofLines (start ++ (block ++ (block' ++ lines))))
      (ofLines (start ++ (block' ++ (block ++ lines)))) := by
  obtain ⟨t, rfl, ht⟩ := hblock.exists_tag
  obtain ⟨t', rfl, ht'⟩ := hblock'.exists_tag
  have hbehind := hblock.startsTag lines
  have hbehind' := hblock'.startsTag lines
  rw [ofLines_append start (hblock.startsTag _), ofLines_append start (hblock'.startsTag _),
    ht _ hbehind', ht' _ hlines, ht' _ hbehind, ht _ hlines]
  refine ⟨rfl, fun kinds hkinds => tagsOf_swap fun hboth => hne ?_⟩
  exact (eq_of_mem_lookupKinds hg hkinds htag hboth.1).trans
    (eq_of_mem_lookupKinds hkinds hg' hboth.2 htag')

/-- **Blocks that are not related do not interfere.**  In a comment of lines with stars, in front of a
line that begins with a tag or behind the last line, a block may be inserted whose tag is of none of the
kinds that are looked for; and two blocks that stand next to each other may be swapped, if their tags
are of different kinds.  Neither changes the model of the method, or the fault. -/
theorem extractMethod_of_unrelated_blocks (method : SourceNode) {opening closing : List WideChar}
    (hopening : IsLine opening) (hclosing : IsClosing closing) (start : List StarLine)
    {lines : List StarLine} (hlines : ∀ line ∈ lines.head?, StartsTag line.content) :
    (∀ tag block, IsBlock tag (block.map StarLine.content) → (∀ kinds ∈ lookupKinds, tag ∉ kinds) →
      extractMethod { method with
        comment := some (starredComment opening (start ++ (block ++ lines)) closing) } =
      extractMethod { method with
        comment := some (starredComment opening (start ++ lines) closing) }) ∧
    ∀ g ∈ lookupKinds, ∀ g' ∈ lookupKinds, g ≠ g' → ∀ tag ∈ g, ∀ tag' ∈ g', ∀ block block',
      IsBlock tag (block.map StarLine.content) → IsBlock tag' (block'.map StarLine.content) →
      extractMethod { method with
        comment := some (starredComment opening (start ++ (block ++ (block' ++ lines))) closing) } =
      extractMethod { method with
        comment := some (starredComment opening (start ++ (block' ++ (block ++ lines))) closing) } := by
  have hcontents : ∀ line ∈ (lines.map StarLine.content).head?, StartsTag line := by
    intro line hline
    rw [List.head?_map] at hline
    obtain ⟨starred, hstarred, rfl⟩ := Option.map_eq_some_iff.1 hline
    exact hlines starred hstarred
  constructor
  · intro tag block hblock htag
    refine congrArg MethodModel.validate (methodModel_congr method ?_)
    simp only [read_starred hopening _ hclosing, List.map_append, ← List.cons_append]
    exact sameLookups_insert hblock htag hcontents _
  · intro g hg g' hg' hne tag htag tag' htag' block block' hblock hblock'
    refine congrArg MethodModel.validate (methodModel_congr method ?_)
    simp only [read_starred hopening _ hclosing, List.map_append, ← List.cons_append]
    exact sameLookups_swap hg hg' hne htag htag' hblock hblock' hcontents _

/-! ### A sample -/

/-- The code points of a text that end no line. -/
def unbroken (text : String) : List WideChar :=
  (WideString.ofString text).toList.filter fun c => !c.satisfies isLineBreak

theorem isLine_unbroken (text : String) : IsLine (unbroken text) := by
  intro c hc
  simpa using (List.mem_filter.1 hc).2

theorem isBreak_feed : IsBreak [.char '\n'] := .single rfl

theorem isIndent_space : IsIndent [.char ' '] := by
  unfold IsIndent IsLine
  decide

/-- A line with a space in front of its star. -/
def spacedLine (text : String) : StarLine :=
  ⟨[.char '\n'], [.char ' '], unbroken text, isBreak_feed, isIndent_space, isLine_unbroken text⟩

/-- A method with a parameter. -/
def summed : SourceNode :=
  { kind := .method, name := "sum", children := [{ kind := .parameter, name := "x" }] }

/-- The method, with lines of a comment. -/
def summedBy (texts : List String) : SourceNode :=
  { summed with
    comment := some (starredComment [] (texts.map spacedLine) [.char '\n', .char ' ']) }

/-- A block that begins with a line whose tag is found. -/
theorem isBlock_of_splitTag? {tag : String} {first : List WideChar} {more : List (List WideChar)}
    (h : (splitTag? first).map (·.1) = some (tag.toList.map .char))
    (hmore : ∀ line ∈ more, ¬ StartsTag line) : IsBlock tag (first :: more) := by
  obtain ⟨⟨word, rest⟩, hsplit, rfl⟩ := Option.map_eq_some_iff.1 h
  exact ⟨first, more, rest, rfl, splitTag?_eq_some_iff.1 hsplit, hmore⟩

/-- A block about something else that mentions the parameter, and a description of the parameter behind
that of a fault. -/
theorem extractMethod_of_unrelated_blocks_summed :
    extractMethod (summedBy ([" Sums.", " @param x first"] ++
        ([" @see A", "   @ param x, @param x"] ++ [" @throws E why", ""]))) =
      extractMethod (summedBy ([" Sums.", " @param x first"] ++ [" @throws E why", ""])) ∧
    extractMethod (summedBy ([" Sums."] ++
        ([" @param x first"] ++ ([" @throws E why", ""] ++ [" @return y"])))) =
      extractMethod (summedBy ([" Sums."] ++
        ([" @throws E why", ""] ++ ([" @param x first"] ++ [" @return y"])))) := by
  have hopening : IsLine [] := isLine_unbroken ""
  have hclosing : IsClosing [.char '\n', .char ' '] :=
    .inr ⟨[.char '\n'], [.char ' '], isBreak_feed, isIndent_space, rfl⟩
  have hsee : IsBlock "see" (([" @see A", "   @ param x, @param x"].map spacedLine).map
      StarLine.content) := isBlock_of_splitTag? (by decide +kernel) (by decide +kernel)
  have hparam : IsBlock "param" (([" @param x first"].map spacedLine).map StarLine.content) :=
    isBlock_of_splitTag? (by decide +kernel) (by decide +kernel)
  have hthrows : IsBlock "throws" (([" @throws E why", ""].map spacedLine).map StarLine.content) :=
    isBlock_of_splitTag? (by decide +kernel) (by decide +kernel)
  have hinsert := (extractMethod_of_unrelated_blocks summed hopening hclosing
    ([" Sums.", " @param x first"].map spacedLine)
    (show ∀ line ∈ ([" @throws E why", ""].map spacedLine).head?, StartsTag line.content by
      decide +kernel)).1 "see" _ hsee (by decide)
  have hswap := (extractMethod_of_unrelated_blocks summed hopening hclosing
    ([" Sums."].map spacedLine)
    (show ∀ line ∈ ([" @return y"].map spacedLine).head?, StartsTag line.content by
      decide +kernel)).2 ["param"] (by decide) ["throws", "exception"] (by decide) (by decide)
    "param" (by decide) "throws" (by decide) _ _ hparam hthrows
  simp only [← List.map_append] at hinsert hswap
  exact ⟨hinsert, hswap⟩

end SourceDoc
