import Mathlib.Logic.Relation
import SourceDoc.Proofs.Model.BracketPairs

/-!
# Removal of innermost pairs

A pair of angle brackets without brackets in it can be taken out of a text (`RemovesPair`).  This changes
nothing for the other pairs that a stack finds, so the same text is outside of them
(`RemovesPair.textOutside_eq`), and this text is reached by such removals
(`removesPairs_textOutside`).  So whichever pair is taken next, the text outside of pairs is left in the end
(`removesPairs_and_isStripped_iff`).

A round of `dropGroups` is a number of removals, and one at least if there is a pair
(`removesPairs_dropInnermost`, `isStripped_of_dropInnermost_eq`).  As every removal takes away an opening
bracket, the rounds come to an end (`loopLeaves_dropGroups`).
-/

namespace SourceDoc

open SourceDoc.Text

/-! ### Removals -/

/-- A pair of brackets is taken out of a text with what is inside, which has no brackets. -/
inductive RemovesPair : List Char → List Char → Prop where
  | intro (before after : List Char) {inside : List Char} (hinside : ∀ c ∈ inside, c ≠ '<' ∧ c ≠ '>') :
      RemovesPair (before ++ '<' :: (inside ++ '>' :: after)) (before ++ after)

/-- Pairs of brackets are taken out of a text one after another, in some order. -/
abbrev RemovesPairs : List Char → List Char → Prop := Relation.ReflTransGen RemovesPair

/-- No pair can be taken out of a text. -/
def IsStripped (text : List Char) : Prop := ∀ shorter, ¬ RemovesPair text shorter

variable {text shorter final : List Char}

/-- A removal takes away an opening bracket. -/
theorem RemovesPair.count_lt (h : RemovesPair text shorter) : shorter.count '<' < text.count '<' := by
  obtain ⟨before, after, -⟩ := h
  simp only [List.count_append, List.count_cons_self, List.count_cons_of_ne (show '>' ≠ '<' by decide)]
  omega

theorem RemovesPairs.eq_or_count_lt (h : RemovesPairs text shorter) :
    shorter = text ∨ shorter.count '<' < text.count '<' := by
  induction h with
  | refl => exact .inl rfl
  | tail _ hstep ih =>
    rcases ih with rfl | hlt
    · exact .inr hstep.count_lt
    · exact .inr (Nat.lt_trans hstep.count_lt hlt)

theorem RemovesPairs.count_le (h : RemovesPairs text shorter) : shorter.count '<' ≤ text.count '<' := by
  rcases h.eq_or_count_lt with rfl | hlt
  · exact Nat.le_refl _
  · exact Nat.le_of_lt hlt

/-- **Removals come to an end**, in whatever order they are made. -/
theorem wellFounded_removesPair : WellFounded fun shorter text => RemovesPair text shorter :=
  Subrelation.wf (fun h => h.count_lt) (measure (List.count '<')).wf

/-- What stands around a text plays no part. -/
theorem RemovesPairs.append (h : RemovesPairs text shorter) (before after : List Char) :
    RemovesPairs (before ++ (text ++ after)) (before ++ (shorter ++ after)) := by
  induction h with
  | refl => exact .refl
  | tail _ hstep ih =>
    obtain ⟨front, rest, hinside⟩ := hstep
    have hpair := RemovesPair.intro (before ++ front) (rest ++ after) hinside
    exact ih.tail (by simpa using hpair)

theorem isStripped_of_notMem (h : '<' ∉ text) : IsStripped text := by
  intro shorter hstep
  have hlt := hstep.count_lt
  rw [List.count_eq_zero.2 h] at hlt
  exact Nat.not_lt_zero _ hlt

/-! ### The text outside stays the same -/

theorem CutBack.foldl_read_plain (cut : CutBack) {inside : List Char}
    (h : ∀ c ∈ inside, c ≠ '<' ∧ c ≠ '>') :
    inside.foldl CutBack.read cut = ⟨cut.kept ++ inside, cut.earlier⟩ := by
  induction inside generalizing cut with
  | nil => rw [List.append_nil, List.foldl_nil]
  | cons c inside ih =>
    obtain ⟨hc, hinside⟩ := List.forall_mem_cons.1 h
    rw [List.foldl_cons, CutBack.read_plain hc.1 hc.2, ih _ hinside, List.append_assoc,
      List.singleton_append]

/-- Behind a pair the stack is as it was before. -/
theorem CutBack.foldl_read_pair (cut : CutBack) {inside : List Char}
    (h : ∀ c ∈ inside, c ≠ '<' ∧ c ≠ '>') (after : List Char) :
    ('<' :: (inside ++ '>' :: after)).foldl CutBack.read cut = after.foldl CutBack.read cut := by
  rw [List.foldl_cons, CutBack.read_open, List.foldl_append, CutBack.foldl_read_plain _ h,
    List.foldl_cons, CutBack.read_close_cons]

/-- **A removal leaves the text outside of pairs as it is.** -/
theorem RemovesPair.textOutside_eq (h : RemovesPair text shorter) :
    textOutside shorter = textOutside text := by
  obtain ⟨before, after, hinside⟩ := h
  rw [← kept_cutBack, ← kept_cutBack, cutBack, cutBack, List.foldl_append, List.foldl_append,
    CutBack.foldl_read_pair _ hinside]

theorem RemovesPairs.textOutside_eq (h : RemovesPairs text shorter) :
    textOutside shorter = textOutside text := by
  induction h with
  | refl => rfl
  | tail _ hstep ih => rw [hstep.textOutside_eq, ih]

/-! ### The text outside is reached -/

/-- Between a bracket that waits and the next one, or the end, stands no bracket. -/
def CutBack.IsLinked (cut : CutBack) : Prop :=
  (cut.kept :: cut.earlier).IsChain fun text before =>
    ∃ inside, (∀ c ∈ inside, c ≠ '<' ∧ c ≠ '>') ∧ text = before ++ '<' :: inside

/-- **One character is kept, or a pair is removed.** -/
theorem CutBack.IsLinked.read {cut : CutBack} (h : cut.IsLinked) (c : Char) :
    (cut.read c).IsLinked ∧
      ∀ rest, RemovesPairs (cut.kept ++ c :: rest) ((cut.read c).kept ++ rest) := by
  have hkeep : ∀ rest, RemovesPairs (cut.kept ++ c :: rest) (cut.kept ++ [c] ++ rest) := fun rest => by
    rw [List.append_assoc, List.singleton_append]
  obtain ⟨kept, earlier⟩ := cut
  by_cases hopen : c = '<'
  · subst hopen
    rw [CutBack.read_open]
    exact ⟨List.isChain_cons_cons.2 ⟨⟨[], fun _ hc => absurd hc List.not_mem_nil, rfl⟩, h⟩, hkeep⟩
  cases earlier with
  | nil =>
    have hread : CutBack.read ⟨kept, []⟩ c = ⟨kept ++ [c], []⟩ := by
      by_cases hclose : c = '>'
      · rw [hclose, CutBack.read_close_nil]
      · rw [CutBack.read_plain hopen hclose]
    rw [hread]
    exact ⟨.singleton _, hkeep⟩
  | cons before earlier =>
    obtain ⟨⟨inside, hinside, hkept⟩, hchain⟩ := List.isChain_cons_cons.1 h
    by_cases hclose : c = '>'
    · -- The partner is the last bracket that waits, and no bracket stands behind it.
      subst hclose
      rw [CutBack.read_close_cons]
      refine ⟨hchain, fun rest => .single ?_⟩
      rw [hkept, List.append_assoc]
      exact .intro before rest hinside
    · rw [CutBack.read_plain hopen hclose]
      refine ⟨List.isChain_cons_cons.2 ⟨⟨inside ++ [c], ?_, ?_⟩, hchain⟩, hkeep⟩
      · exact List.forall_mem_append.2 ⟨hinside, List.forall_mem_singleton.2 ⟨hopen, hclose⟩⟩
      · rw [hkept, List.append_assoc]
        rfl

theorem CutBack.IsLinked.removesPairs {cut : CutBack} (h : cut.IsLinked) (text : List Char) :
    RemovesPairs (cut.kept ++ text) (text.foldl CutBack.read cut).kept := by
  induction text generalizing cut with
  | nil => rw [List.append_nil, List.foldl_nil]
  | cons c text ih =>
    obtain ⟨hlinked, hstep⟩ := h.read c
    exact (hstep text).trans (ih hlinked)

/-- **Removals lead to the text outside of pairs.** -/
theorem removesPairs_textOutside (text : List Char) : RemovesPairs text (textOutside text) := by
  have hlinked : CutBack.IsLinked ⟨[], []⟩ := .singleton _
  rw [← kept_cutBack]
  exact hlinked.removesPairs text

/-- Where no pair can be taken out, everything is outside. -/
theorem IsStripped.textOutside_eq (h : IsStripped text) : textOutside text = text := by
  rcases Relation.ReflTransGen.cases_head (removesPairs_textOutside text) with heq | ⟨next, hstep, -⟩
  · exact heq.symm
  · exact absurd hstep (h next)

/-- **The order of removals makes no difference.** -/
theorem RemovesPairs.eq_textOutside (h : RemovesPairs text final) (hfinal : IsStripped final) :
    final = textOutside text := by
  -- No two orders are compared: each keeps the text outside, which is all there is in the end.
  rw [← h.textOutside_eq, hfinal.textOutside_eq]

/-! ### One round -/

theorem dropInnermost_none_cons {c : Char} (hopen : c ≠ '<') (rest : List Char) :
    dropInnermost none (c :: rest) = c :: dropInnermost none rest := by
  rw [dropInnermost, if_neg hopen]

theorem dropInnermost_some_cons {c : Char} (hopen : c ≠ '<') (hclose : c ≠ '>')
    (held rest : List Char) :
    dropInnermost (some held) (c :: rest) = dropInnermost (some (c :: held)) rest := by
  simp only [dropInnermost, if_neg hopen, if_neg hclose]

theorem dropInnermost_open (held : Option (List Char)) (rest : List Char) :
    dropInnermost held ('<' :: rest) = heldText held ++ dropInnermost (some []) rest := by
  rw [dropInnermost.eq_def]
  exact if_pos rfl

theorem dropInnermost_close (held rest : List Char) :
    dropInnermost (some held) ('>' :: rest) = dropInnermost none rest := by
  simp [dropInnermost]

/-- What is done with stands before the text, and what is held back stands between them. -/
theorem removesPairs_append_dropInnermost (held : Option (List Char))
    (hheld : ∀ inside ∈ held, ∀ c ∈ inside, c ≠ '<' ∧ c ≠ '>') (before text : List Char) :
    RemovesPairs (before ++ (heldText held ++ text)) (before ++ dropInnermost held text) := by
  -- The text before is arbitrary, as each character that is kept is added to it.
  induction text generalizing held before with
  | nil => rw [List.append_nil, dropInnermost]
  | cons c text ih =>
    by_cases hopen : c = '<'
    · subst hopen
      have hrest := ih (some []) (by simp) (before ++ heldText held)
      rw [dropInnermost_open]
      simpa [heldText] using hrest
    cases held with
    | none =>
      have hrest := ih none hheld (before ++ [c])
      rw [dropInnermost_none_cons hopen]
      simpa [heldText] using hrest
    | some inside =>
      have hinside := hheld inside rfl
      by_cases hclose : c = '>'
      · -- The bracket that is held back has found its partner.
        subst hclose
        have hpair : RemovesPair (before ++ (heldText (some inside) ++ '>' :: text)) (before ++ text) :=
          .intro before text fun c hc => hinside c (List.mem_reverse.1 hc)
        rw [dropInnermost_close]
        exact .head hpair (ih none (by simp) before)
      · have hrest := ih (some (c :: inside)) (by simpa using ⟨⟨hopen, hclose⟩, hinside⟩) before
        rw [dropInnermost_some_cons hopen hclose]
        simpa [heldText] using hrest

/-- **A round is a number of removals.** -/
theorem removesPairs_dropInnermost (text : List Char) : RemovesPairs text (dropInnermost none text) :=
  removesPairs_append_dropInnermost none (by simp) [] text

/-- An opening bracket ends what was held back before it. -/
theorem dropInnermost_append_open (held : Option (List Char)) (before rest : List Char) :
    dropInnermost held (before ++ '<' :: rest) =
      dropInnermost held before ++ dropInnermost (some []) rest := by
  induction before generalizing held with
  | nil => rw [List.nil_append, dropInnermost_open, dropInnermost]
  | cons c before ih =>
    rw [List.cons_append]
    by_cases hopen : c = '<'
    · subst hopen
      rw [dropInnermost_open, dropInnermost_open, ih, List.append_assoc]
    cases held with
    | none => rw [dropInnermost_none_cons hopen, dropInnermost_none_cons hopen, ih, List.cons_append]
    | some inside =>
      by_cases hclose : c = '>'
      · subst hclose
        rw [dropInnermost_close, dropInnermost_close, ih]
      · rw [dropInnermost_some_cons hopen hclose, dropInnermost_some_cons hopen hclose, ih]

theorem dropInnermost_some_of_all {inside : List Char} (h : ∀ c ∈ inside, c ≠ '<' ∧ c ≠ '>')
    (held rest : List Char) :
    dropInnermost (some held) (inside ++ '>' :: rest) = dropInnermost none rest := by
  induction inside generalizing held with
  | nil => rw [List.nil_append, dropInnermost_close]
  | cons c inside ih =>
    obtain ⟨hc, hinside⟩ := List.forall_mem_cons.1 h
    rw [List.cons_append, dropInnermost_some_cons hc.1 hc.2, ih hinside]

/-- A round takes away every pair without brackets in it. -/
theorem dropInnermost_pair {inside : List Char} (h : ∀ c ∈ inside, c ≠ '<' ∧ c ≠ '>')
    (before after : List Char) :
    dropInnermost none (before ++ '<' :: (inside ++ '>' :: after)) =
      dropInnermost none before ++ dropInnermost none after := by
  rw [dropInnermost_append_open, dropInnermost_some_of_all h]

/-- **A round that changes nothing finds no pair.** -/
theorem isStripped_of_dropInnermost_eq (h : dropInnermost none text = text) : IsStripped text := by
  rintro _ ⟨before, after, hinside⟩
  have hbefore := (removesPairs_dropInnermost before).count_le
  have hafter := (removesPairs_dropInnermost after).count_le
  have hcount := congrArg (List.count '<') h
  rw [dropInnermost_pair hinside] at hcount
  simp only [List.count_append, List.count_cons_self,
    List.count_cons_of_ne (show '>' ≠ '<' by decide)] at hcount
  omega

/-! ### All rounds -/

/-- What is left of a text when rounds are made for as long as there is an opening bracket and the text
changes. -/
inductive LoopLeaves : List Char → List Char → Prop where
  | noBracket {text : List Char} (h : '<' ∉ text) : LoopLeaves text text
  | unchanged {text : List Char} (h : '<' ∈ text) (hsame : dropInnermost none text = text) :
      LoopLeaves text text
  | round {text left : List Char} (h : '<' ∈ text) (hchange : dropInnermost none text ≠ text)
      (hrest : LoopLeaves (dropInnermost none text) left) : LoopLeaves text left

/-- What is left is reached by removals, and no pair is left in it. -/
theorem LoopLeaves.removesPairs {left : List Char} (h : LoopLeaves text left) :
    RemovesPairs text left ∧ IsStripped left := by
  induction h with
  | noBracket hnone => exact ⟨.refl, isStripped_of_notMem hnone⟩
  | unchanged _ hsame => exact ⟨.refl, isStripped_of_dropInnermost_eq hsame⟩
  | round _ _ _ ih => exact ⟨(removesPairs_dropInnermost _).trans ih.1, ih.2⟩

theorem loopLeaves_dropGroupsWithin {rounds : Nat} (h : text.count '<' ≤ rounds) :
    LoopLeaves text (dropGroupsWithin rounds text) := by
  -- Each round takes away a bracket at least, so the brackets are gone before the rounds are.
  induction rounds generalizing text with
  | zero => exact .noBracket (List.count_eq_zero.1 (Nat.le_zero.1 h))
  | succ rounds ih =>
    have hround := (removesPairs_dropInnermost text).eq_or_count_lt
    rw [dropGroupsWithin]
    by_cases hsame : dropInnermost none text = text
    · rw [if_pos hsame]
      by_cases hopen : '<' ∈ text
      · exact .unchanged hopen hsame
      · exact .noBracket hopen
    · have hlt := hround.resolve_left hsame
      rw [if_neg hsame]
      exact .round (List.count_pos_iff.1 (Nat.zero_lt_of_lt hlt)) hsame (ih (by omega))

/-- **The rounds come to an end.** -/
theorem loopLeaves_dropGroups (text : List Char) : LoopLeaves text (dropGroups text) :=
  loopLeaves_dropGroupsWithin (Nat.le_refl _)

/-- **All rounds together leave the text outside of pairs.** -/
theorem dropGroups_eq_textOutside (text : List Char) : dropGroups text = textOutside text := by
  obtain ⟨hremoves, hstripped⟩ := (loopLeaves_dropGroups text).removesPairs
  exact hremoves.eq_textOutside hstripped

theorem loopLeaves_iff {left : List Char} : LoopLeaves text left ↔ left = textOutside text := by
  constructor
  · intro h
    exact h.removesPairs.1.eq_textOutside h.removesPairs.2
  · rintro rfl
    rw [← dropGroups_eq_textOutside]
    exact loopLeaves_dropGroups text

theorem removesPairs_and_isStripped_iff :
    RemovesPairs text final ∧ IsStripped final ↔ final = textOutside text := by
  constructor
  · rintro ⟨h, hfinal⟩
    exact h.eq_textOutside hfinal
  · rintro rfl
    exact (loopLeaves_iff.2 rfl).removesPairs

/-- **The simple name of a type is made from what stands outside of its pairs of brackets.**  Whatever the
text, the rounds come to an end, and they leave the text without the pairs that a single pass with a stack
finds, each with everything inside it.  Brackets without a partner are outside of the pairs and so stay
where they are.  If innermost pairs are removed in any other order, this comes to an end as well, and the
same text is left. -/
theorem simpleTypeName_outside_pairs (typeText : String) :
    (∀ left, LoopLeaves typeText.toList left ↔ left = textOutside typeText.toList) ∧
      simpleTypeName typeText =
        String.ofList (afterLast '.' (trim (dropDimensions (textOutside typeText.toList)))) ∧
      (∀ place, IsUnmatched typeText.toList place →
        isWithin (bracketPass typeText.toList).pairs place = false) ∧
      Acc (fun shorter text => RemovesPair text shorter) typeText.toList ∧
      ∀ final, RemovesPairs typeText.toList final ∧ IsStripped final ↔
        final = textOutside typeText.toList := by
  refine ⟨fun left => loopLeaves_iff, ?_, fun place h => h.isWithin_eq_false,
    wellFounded_removesPair.apply _, fun final => removesPairs_and_isStripped_iff⟩
  rw [simpleTypeName, dropGroups_eq_textOutside]

/-- A bracket that closes too much, and one that is never closed. -/
theorem simpleTypeName_outside_pairs_unmatched :
    let text := "p.Q<A<B>>>.R<S<T>[]".toList
    IsUnmatched text 9 ∧ IsUnmatched text 12 ∧
      isWithin (bracketPass text).pairs 9 = false ∧ isWithin (bracketPass text).pairs 12 = false ∧
      LoopLeaves text "p.Q>.R<S[]".toList ∧ simpleTypeName "p.Q<A<B>>>.R<S<T>[]" = "R<S" ∧
      ∀ final, RemovesPairs text final ∧ IsStripped final → final = "p.Q>.R<S[]".toList := by
  obtain ⟨hloop, hname, hunmatched, -, hfinal⟩ := simpleTypeName_outside_pairs "p.Q<A<B>>>.R<S<T>[]"
  have houtside : textOutside "p.Q<A<B>>>.R<S<T>[]".toList = "p.Q>.R<S[]".toList := by decide +kernel
  have hclose : IsUnmatched "p.Q<A<B>>>.R<S<T>[]".toList 9 := by
    unfold IsUnmatched
    decide +kernel
  have hopen : IsUnmatched "p.Q<A<B>>>.R<S<T>[]".toList 12 := by
    unfold IsUnmatched
    decide +kernel
  rw [houtside] at hname
  refine ⟨hclose, hopen, hunmatched 9 hclose, hunmatched 12 hopen, (hloop _).2 houtside.symm, ?_,
    fun final h => ((hfinal final).1 h).trans houtside⟩
  rw [hname]
  decide +kernel

end SourceDoc
