import SourceDoc.Proofs.Node.Initializers
import SourceDoc.Proofs.Span.Cuts
import SourceDoc.Proofs.Span.Partners

/-!
# Which searches fail

Tokens are found by position and by text, ends of declarations by walking, and texts by cutting.  For
tokens that stand as a parsed source has them, two things can fail: the partner of a bracket is not found
if the bracket is unclosed, and a place is not found if the table of offsets is too short (`TooShort`).
-/

namespace SourceDoc.TokenText

open SourceDoc.Grammar SourceDoc.Grammar.Parser SourceDoc.Token SourceDoc.Tree

variable {src : TokenText} {E : SpanFault → Prop} {i j k : Nat}

/-! ### Cutting -/

/-- The table of offsets has no entry for some place of the decoded text. -/
def TooShort (src : TokenText) : Prop :=
  ∃ table, src.offsets = some table ∧ table.length ≤ src.data.length

theorem gives_sourcePlace {place : Nat} (hplace : place ≤ src.data.length)
    (hshort : TooShort src → E .outOfRange) :
    Except.Gives E (fun _ => True) (src.sourcePlace place) := by
  rw [sourcePlace]
  cases htable : src.offsets with
  | none => exact .ok trivial
  | some table =>
    dsimp only
    cases hfound : table[place]? with
    | some found => exact .ok trivial
    | none =>
      exact .error (hshort ⟨table, htable, (List.getElem?_eq_none_iff.1 hfound).trans hplace⟩)

/-- **A text between two tokens is found, unless the table of offsets is too short.** -/
theorem gives_cut (hplaced : Placed src) (hshort : TooShort src → E .outOfRange) {first last : Int}
    (hfirst : 0 ≤ first) (hlast : last < src.size) :
    Except.Gives E (fun _ => True) (src.cut first last) := by
  rw [cut_eq]
  split
  · exact .ok trivial
  · obtain ⟨i, rfl⟩ := Int.eq_ofNat_of_zero_le hfirst
    obtain ⟨j, rfl⟩ := Int.eq_ofNat_of_zero_le (show 0 ≤ last by omega)
    have htoken : ∀ {k : Nat}, k < src.size → ∃ t, src.tokens[k]? = some t := fun hk =>
      ⟨_, Array.getElem?_eq_getElem hk⟩
    obtain ⟨t, ht⟩ := htoken (k := i) (by omega)
    obtain ⟨u, hu⟩ := htoken (k := j) (by omega)
    obtain ⟨start, hstart, -⟩ := hplaced i t ht
    obtain ⟨lastStart, hlastStart, -⟩ := hplaced j u hu
    have hplaces : src.places i j = .ok (start, lastStart + u.text.length) := by
      rw [places, hstart, hlastStart, token_natCast hu]
      rfl
    obtain ⟨hlo, hhi⟩ := le_of_places hplaced hplaces
    rw [hplaces]
    exact (gives_sourcePlace hlo hshort).bind fun _ _ =>
      (gives_sourcePlace hhi hshort).bind fun _ _ => .ok trivial

/-! ### Parentheses -/

/-- A parenthesis behind words and paired brackets is found from their first on. -/
theorem find_of_nested (hnested : Nested src.tokens i j) (hopen : Stands src.tokens j "(") :
    src.find i "(" = .ok (j : Int) := by
  have htext : ∀ {t : Token}, t.text = .ofString "(" ↔ t.value = "(" :=
    text_eq_ofString_iff (by decide)
  have hle := (hnested.rises .braces).le
  obtain ⟨t, ht, hvalue⟩ := hopen
  obtain ⟨hsize, rfl⟩ := Array.getElem?_eq_some_iff.1 ht
  have hfound : (src.tokens.toList.drop i).findIdx? (·.text == .ofString "(") = some (j - i) := by
    rw [List.findIdx?_eq_some_iff_getElem]
    refine ⟨by rw [List.length_drop, Array.length_toList]; omega, ?_, fun k hk => ?_⟩
    · rw [List.getElem_drop, Array.getElem_toList, beq_iff_eq, htext]
      simp only [Nat.add_sub_of_le hle, hvalue]
    · obtain ⟨u, hu, hne⟩ := hnested.ne_round (i + k) (by omega) (by omega)
      obtain ⟨_, rfl⟩ := Array.getElem?_eq_some_iff.1 hu
      rw [List.getElem_drop, Array.getElem_toList, beq_iff_eq, htext]
      exact hne
  rw [find, tokensFrom_natCast]
  simp only [bind, Except.bind, hfound]
  exact congrArg Except.ok (by omega)

/-! ### Ends -/

theorem lt_of_semicolonFrom {depth m r : Int} {rest : List Token}
    (h : semicolonFrom depth m rest = some r) : r < m + rest.length := by
  induction rest generalizing depth m with
  | nil => cases h
  | cons t rest ih =>
    rw [List.length_cons]
    by_cases hstop : depth = 0 ∧ t.value = ";"
    · rw [hstop.1, semicolonFrom_stop hstop.2] at h
      have := Option.some.inj h
      omega
    · rw [walks_semicolonFrom hstop] at h
      have := ih h
      omega

/-- The end of a statement is always found. -/
theorem exists_statementEnd (hi : i < src.size) :
    ∃ stop, src.statementEnd i = .ok stop ∧ stop < src.size := by
  rw [statementEnd, tokensFrom_natCast]
  refine ⟨_, rfl, ?_⟩
  cases hfound : semicolonFrom 0 i (src.tokens.toList.drop i) with
  | none =>
    rw [Option.getD_none, last]
    omega
  | some stop =>
    have := lt_of_semicolonFrom hfound
    rw [List.length_drop, Array.length_toList] at this
    rw [Option.getD_some]
    have hsize : src.size = src.tokens.size := rfl
    omega

/-- Where the walk to the end of a declaration is higher than its start, and does not leave the bracket
it is in, the declaration ends with the last token. -/
theorem declarationEnd_of_open {anchor last : Nat} (hhead : Rises .heading src.tokens anchor j)
    (hopen : height .heading src.tokens j ≠ height .heading src.tokens anchor)
    (hremains : Remains .heading src.tokens j last) (hlast : src.size ≤ last) :
    src.declarationEnd anchor = .ok src.last := by
  have hwalk := bodyOrEndFrom_of_remains hhead hopen hremains
  have hnil : src.tokens.toList.drop last = [] := List.drop_eq_nil_of_le hlast
  rw [hnil] at hwalk
  rw [declarationEnd, tokensFrom_natCast]
  simp only [bind, Except.bind, hwalk]
  rfl

/-- **The end of a declaration is found, unless the brace of its body is unclosed.** -/
theorem gives_declarationEnd {anchor stop last : Nat} {found : Option Extent}
    (h : CallableAt src.tokens anchor stop found) (hremains : Remains .heading src.tokens stop last)
    (hlast : src.size ≤ last)
    (hbrace : ∀ extent t, found = some extent → src.tokens[extent.first]? = some t →
      Unclosed src.tokens extent.first → E (.unbalanced t.value t.position)) :
    Except.Gives E (· < (src.size : Int)) (src.declarationEnd anchor) := by
  have hend : src.last < src.size := by
    rw [TokenText.last]
    omega
  cases found with
  | some extent =>
    obtain ⟨hhead, hbraced, rfl⟩ := h
    by_cases hlevel : height .heading src.tokens extent.first = height .heading src.tokens anchor
    · rw [declarationEnd_eq_closing hhead hbraced.opener hlevel]
      obtain ⟨t, ht, hvalue⟩ := hbraced.opener
      rcases closing_cases ht (by rw [hvalue]; decide) with ⟨-, j, hpartner, hfound⟩ | ⟨hunclosed, hfault⟩
      · exact .of_eq hfound (Int.ofNat_lt.2 hpartner.lt_size)
      · rw [hfault]
        exact .error (hbrace extent t rfl ht hunclosed)
    · exact .of_eq (declarationEnd_of_open hhead hlevel (hbraced.remains.trans hremains) hlast) hend
  | none =>
    obtain ⟨semicolon, hhead, hstands, rfl⟩ := h
    have hmore : semicolon < src.size := hstands.lt_size
    by_cases hlevel : height .heading src.tokens semicolon = height .heading src.tokens anchor
    · exact .of_eq (declarationEnd_eq_semicolon hhead hstands hlevel) (by omega)
    · have hsemicolon := hstands.remains_heading (by decide)
      exact .of_eq (declarationEnd_of_open hhead hlevel (hsemicolon.trans hremains) hlast) hend

end SourceDoc.TokenText
