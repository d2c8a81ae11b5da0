import Mathlib.Data.List.Flatten
import SourceDoc.Model.OfUnit
import SourceDoc.Node.OfSource
import SourceDoc.Proofs.Comment.Conservation
import SourceDoc.Proofs.Token.Lexeme

/-!
# Nothing but the inside of a comment is read

The comments that tokens carry begin with `/**` and end with the first `*/` behind the `/*`
(`isAttachable_of_ofSource`).  The delimiters are taken away one after the other, so they are both gone
if they do not overlap: what is read then comes from the text between them, in its order.  They overlap
in `/**/` alone, whose slash stays (`read_within_delimiters_iff`).
-/

namespace SourceDoc.DocComment

open SourceDoc.Text SourceDoc.Token

/-! ### Comments that tokens carry -/

/-- The delimiter that opens a documentation comment. -/
def opener : List WideChar := (WideString.ofString "/**").toList

/-- The delimiter that closes a comment. -/
def closer : List WideChar := (WideString.ofString "*/").toList

/-- A documentation comment as it stands in a text: behind its first two characters the closing
delimiter occurs at the end, and nowhere before. -/
structure IsAttachable (text : List WideChar) : Prop where
  opens : opener <+: text
  closes : closer <:+ text.drop 2
  first : ¬ closer <:+: (text.drop 2).dropLast

/-- The characters behind the opening delimiter and in front of the closing one. -/
def between (text : List WideChar) : List WideChar := (text.drop 3).take (text.length - 5)

/-- The end of a comment is where the closing delimiter occurs first. -/
theorem closer_of_blockTail? {text : List WideChar} {n : Nat} (h : blockTail? text = some n) :
    closer <:+ text.take n ∧ ¬ closer <:+: (text.take n).dropLast := by
  fun_induction blockTail? text generalizing n with
  | case1 rest =>
    cases h
    show closer <:+ closer ∧ ¬ closer <:+: [.char '*']
    exact ⟨List.suffix_refl closer, by decide⟩
  | case2 c rest hnot ih =>
    obtain ⟨m, hm, rfl⟩ := Option.map_eq_some_iff.1 h
    obtain ⟨hclose, hfirst⟩ := ih hm
    rw [List.take_succ_cons]
    refine ⟨hclose.trans (List.suffix_cons c _), fun hinfix => ?_⟩
    have hne : rest.take m ≠ [] := by
      intro hnil
      rw [hnil] at hclose
      exact absurd hclose (by decide)
    rw [List.dropLast_cons_of_ne_nil hne, List.infix_cons_iff] at hinfix
    rcases hinfix with hfront | hinfix
    · -- the delimiter would begin with this character
      obtain ⟨rfl, hslash⟩ := List.cons_prefix_cons.1 hfront
      obtain ⟨more, hmore⟩ := (hslash.trans (List.dropLast_prefix _)).trans (List.take_prefix m rest)
      exact hnot more rfl hmore.symm
    · exact hfirst hinfix
  | case3 => cases h

theorem isAttachable_of_commentLength {text : List WideChar} {n : Nat}
    (h : commentLength text = .ok (some n)) (hdoc : isDocumentation (text.take n) = true) :
    IsAttachable (text.take n) := by
  have hopens : opener <+: text.take n := List.isPrefixOf_iff_prefix.1 hdoc
  unfold commentLength at h
  split at h
  · -- a comment up to the end of its line has no star behind its first slash
    have hfront := hopens.trans (List.take_prefix n _)
    exact absurd (List.cons_prefix_cons.1 (List.cons_prefix_cons.1 hfront).2).1 (by decide)
  · rename_i rest
    split at h
    · rename_i length htail
      obtain rfl := Option.some.inj (Except.ok.inj h)
      have hdrop : ((.char '/' :: .char '*' :: rest).take (2 + length)).drop 2 = rest.take length := by
        rw [Nat.add_comm]
        rfl
      have hcloser := closer_of_blockTail? htail
      rw [← hdrop] at hcloser
      exact ⟨hopens, hcloser.1, hcloser.2⟩
    · cases h
  · cases h

/-- A token takes the comment that is pending, and a comment is pending only if it was read. -/
theorem isAttachable_of_tokensFrom {rounds : Nat} {place : Token.Place} {previousEnd : Nat}
    {pending : Option WideString} {text : List WideChar} {tokens : List Token}
    (hpending : ∀ raw ∈ pending, IsAttachable raw.toList)
    (h : tokensFrom rounds place previousEnd pending text = .ok tokens) :
    ∀ t ∈ tokens, ∀ raw ∈ t.comment, IsAttachable raw.toList := by
  induction rounds generalizing place previousEnd pending text tokens with
  | zero =>
    cases h
    intro t ht
    cases ht
  | succ rounds ih =>
    cases text with
    | nil =>
      cases h
      intro t ht
      cases ht
    | cons c rest =>
      rw [tokensFrom] at h
      split at h
      · exact ih hpending h
      · split at h
        · cases h
        · rename_i length hcomment
          refine ih (fun raw hraw => ?_) h
          split at hraw
          · rename_i hdoc
            obtain rfl := Option.some.inj hraw
            exact isAttachable_of_commentLength hcomment hdoc
          · exact hpending raw hraw
        · split at h
          · cases h
          · obtain ⟨later, hlater, rfl⟩ := Except.map_eq_ok h
            refine List.forall_mem_cons.2 ⟨hpending, ih (fun raw hraw => ?_) hlater⟩
            cases hraw

/-- **The comments that the tokens of a source carry** begin with the opening delimiter and end with
the first closing one. -/
theorem isAttachable_of_ofSource {source data : List WideChar} {tokens : List Token}
    (h : ofSource source = .ok (data, tokens)) :
    ∀ t ∈ tokens, ∀ raw ∈ t.comment, IsAttachable raw.toList := by
  rw [ofSource] at h
  split at h
  · cases h
  · split at h
    · cases h
    · rename_i htokens
      obtain ⟨rfl, rfl⟩ := Prod.mk.inj (Except.ok.inj h)
      refine isAttachable_of_tokensFrom (fun raw hraw => ?_) htokens
      cases hraw

/-! ### What is kept of the inside -/

theorem flatten_splitLines_sublist (text : List WideChar) :
    (splitLines text).flatten.Sublist text := by
  fun_induction splitLines text with
  | case1 => exact .slnil
  | case2 rest ih => exact (ih.cons _).cons _
  | case3 c rest _ _ ih => exact ih.cons _
  | case4 c rest _ _ hnil ih => exact (List.nil_sublist rest).cons_cons c
  | case5 c rest _ _ line lines hcons ih =>
    rw [hcons] at ih
    exact ih.cons_cons c

theorem trimRight_sublist (text : List WideChar) : (trimRight text).Sublist text :=
  (trimRight_isPrefix text).sublist

theorem cleanLine_sublist (line : List WideChar) : (cleanLine line).Sublist line := by
  have hline : (trimLeft line).Sublist line := List.dropWhile_sublist isBlank
  rw [cleanLine]
  split
  · rename_i rest htrim
    rw [htrim] at hline
    exact (((trimRight_sublist rest).cons _).cons _).trans hline
  · rename_i rest htrim
    rw [htrim] at hline
    exact (((trimRight_sublist rest).cons _).cons _).trans hline
  · rename_i rest _ _ htrim
    rw [htrim] at hline
    exact ((trimRight_sublist rest).cons _).trans hline
  · exact trimRight_sublist line

/-- **The lines of a comment come from its inside**, character by character. -/
theorem flatten_cleanLines_sublist (body : List WideChar) :
    (cleanLines body).flatten.Sublist body := by
  set lines := (splitLines body).map cleanLine with hlines
  have hkept : (cleanLines body).Sublist lines := by
    rw [cleanLines, ← hlines]
    have hback := (List.dropWhile_sublist (l := (lines.dropWhile List.isEmpty).reverse)
      List.isEmpty).reverse
    rw [List.reverse_reverse] at hback
    exact hback.trans (List.dropWhile_sublist List.isEmpty)
  have hclean : lines.flatten.Sublist (splitLines body).flatten := by
    have hline := List.Sublist.flatMap_right (splitLines body) fun line _ => cleanLine_sublist line
    rwa [List.flatMap_id'] at hline
  exact (hkept.flatten.trans hclean).trans (flatten_splitLines_sublist body)

/-! ### Delimiters that overlap -/

/-- Only in `/**/` the delimiters overlap. -/
theorem IsAttachable.eq_or_delimited {text : List WideChar} (h : IsAttachable text) :
    text = (WideString.ofString "/**/").toList ∨ text = opener ++ between text ++ closer := by
  obtain ⟨rest, rfl⟩ := h.opens
  have hcloses : closer <:+ .char '*' :: rest := h.closes
  rcases List.suffix_cons_iff.1 hcloses with heq | ⟨inside, rfl⟩
  · obtain rfl : rest = [.char '/'] := (List.cons.inj heq).2.symm
    exact .inl rfl
  · have hlength : (opener ++ (inside ++ closer)).length - 5 = inside.length := by
      simp only [List.length_append, opener, closer, WideString.ofString]
      simp
      omega
    have hbetween : between (opener ++ (inside ++ closer)) = inside := by
      rw [between, hlength]
      exact List.take_left
    rw [hbetween, List.append_assoc]
    exact .inr rfl

/-- **What is read of a comment comes from between its delimiters, unless they overlap.**  The
characters of the description and of the tags, but for blanks, stand in this order between the
delimiters of every comment that a token may carry, just if the comment is not `/**/`. -/
theorem read_within_delimiters_iff {raw : WideString} (h : IsAttachable raw.toList) :
    (inked ((read raw).description.toList ++ (read raw).tags.flatMap BlockTag.parts)).Sublist
      (between raw.toList) ↔ raw ≠ "/**/" := by
  constructor
  · rintro hsublist rfl
    exact absurd hsublist (by decide)
  · intro hne
    rcases h.eq_or_delimited with heq | hdelimited
    · exact absurd (congrArg WideString.ofList heq) hne
    · have hstrip : stripDelimiters raw.toList = between raw.toList := by
        conv_lhs => rw [hdelimited]
        exact stripDelimiters_delimited _
      rw [(read_conserves raw).2.2, hstrip]
      exact List.filter_sublist.trans (flatten_cleanLines_sublist _)

/-- A comment with further stars next to its delimiters; one of them goes on with the tag. -/
theorem read_within_delimiters_starred :
    IsAttachable (WideString.ofString "/***\n * Sums.\n *\t@see A\n ***/").toList ∧
      read "/***\n * Sums.\n *\t@see A\n ***/" = ⟨"Sums.", [⟨"see", none, "A\n*"⟩]⟩ ∧
      (inked ((read "/***\n * Sums.\n *\t@see A\n ***/").description.toList ++
        (read "/***\n * Sums.\n *\t@see A\n ***/").tags.flatMap BlockTag.parts)).Sublist
          (between (WideString.ofString "/***\n * Sums.\n *\t@see A\n ***/").toList) := by
  have h : IsAttachable (WideString.ofString "/***\n * Sums.\n *\t@see A\n ***/").toList :=
    ⟨by decide, by decide, by decide +kernel⟩
  exact ⟨h, by decide +kernel, (read_within_delimiters_iff h).2 (by decide)⟩

/-- The delimiters of `/**/` overlap, and the last slash is taken for the description of the type
behind it. -/
theorem read_beyond_overlapping_delimiters :
    IsAttachable (WideString.ofString "/**/").toList ∧
      ¬ (inked ((read "/**/").description.toList ++
        (read "/**/").tags.flatMap BlockTag.parts)).Sublist
          (between (WideString.ofString "/**/").toList) ∧
      ∃ unit model, SourceUnit.ofSource "/**/ class A \x7b\x7d" none = .ok unit ∧
        UnitModel.ofUnit unit = .ok model ∧ model.description = some "/" := by
  refine ⟨⟨by decide, by decide, by decide⟩, by decide, ?_⟩
  obtain ⟨unit, hunit, hbuilt⟩ := exists_of_toOption_map (show
    (SourceUnit.ofSource "/**/ class A \x7b\x7d" none).toOption.map (fun unit =>
      (UnitModel.ofUnit unit).toOption.map (·.description)) =
      some (some (some (WideString.ofString "/"))) by
    decide +kernel)
  obtain ⟨model, hmodel, hdescription⟩ := exists_of_toOption_map hbuilt
  exact ⟨unit, model, hunit, hmodel, hdescription⟩

end SourceDoc.DocComment
