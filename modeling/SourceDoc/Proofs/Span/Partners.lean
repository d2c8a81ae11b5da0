import SourceDoc.Proofs.Grammar.Heights
import SourceDoc.Proofs.Grammar.Runs
import SourceDoc.Proofs.Span.Index

/-!
# Brackets and their partners

The partner of an opening bracket is found by counting brackets of its kind.  It is found just if the
brackets of that kind come back to the height of the bracket somewhere behind it; otherwise the bracket
is unclosed, and this is the only way in which the search fails (`closing_cases`).
-/

namespace SourceDoc.Grammar

open SourceDoc.Grammar.Parser SourceDoc.TokenText

/-- The brackets of the kind of an opening bracket count. -/
def Gauge.ofOpener (opener : String) : Gauge where
  round := if opener = "(" then 1 else 0
  square := if opener = "[" then 1 else 0
  curly := if opener = openBrace then 1 else 0
  semicolon := 0
  brace := 0
  brace_le := Nat.zero_le _
  semicolon_le := Nat.zero_le _

/-- An opening bracket behind which the brackets of its kind do not come back to its height. -/
def Unclosed (tokens : Array Token) (i : Nat) : Prop :=
  ∃ t, tokens[i]? = some t ∧ isOpener t.value = true ∧ ∀ j, i < j → j ≤ tokens.size →
    height (.ofOpener t.value) tokens i < height (.ofOpener t.value) tokens j

instance (tokens : Array Token) (i : Nat) : Decidable (Unclosed tokens i) :=
  decidable_of_iff (∃ t ∈ tokens[i]?, isOpener t.value = true ∧ ∀ j, j ≤ tokens.size → i < j →
      height (.ofOpener t.value) tokens i < height (.ofOpener t.value) tokens j)
    (exists_congr fun _ => and_congr_right' <| and_congr_right' <| forall_congr' fun _ =>
      forall_comm)

/-- What counts of one kind of brackets. -/
theorem weight_ofOpener {opener closer : String} (h : (opener, closer) ∈ brackets) (value : String) :
    (Gauge.ofOpener opener).weight value =
      if value = opener then 1 else if value = closer then -1 else 0 := by
  have hfences : ∀ pair ∈ brackets, ∀ v ∈ Gauge.fences, (Gauge.ofOpener pair.1).weight v =
      if v = pair.1 then 1 else if v = pair.2 then -1 else 0 := by decide
  have hmem : ∀ pair ∈ brackets, pair.1 ∈ Gauge.fences ∧ pair.2 ∈ Gauge.fences := by decide
  by_cases hvalue : value ∈ Gauge.fences
  · exact hfences _ h value hvalue
  · have hopener : value ≠ opener := fun heq => hvalue (heq ▸ (hmem _ h).1)
    have hcloser : value ≠ closer := fun heq => hvalue (heq ▸ (hmem _ h).2)
    rw [Gauge.weight_of_notMem hvalue, if_neg hopener, if_neg hcloser]

theorem height_le_of_closed {tokens : Array Token} {i : Nat} (h : ¬ Unclosed tokens i)
    {value : String} (hstands : Stands tokens i value) (hopener : isOpener value = true) :
    ∃ j, i < j ∧ j ≤ tokens.size ∧
      height (.ofOpener value) tokens j ≤ height (.ofOpener value) tokens i := by
  obtain ⟨t, ht, rfl⟩ := hstands
  by_contra hnone
  refine h ⟨t, ht, hopener, fun j hij hj => ?_⟩
  by_contra hle
  exact hnone ⟨j, hij, hj, Int.not_lt.1 hle⟩

end SourceDoc.Grammar

namespace SourceDoc.TokenText

open SourceDoc.Grammar SourceDoc.Grammar.Parser SourceDoc.Token

variable {src : TokenText} {tokens : Array Token} {i k : Nat}

/-- The kind of an opening bracket. -/
theorem exists_pair_of_isOpener {value : String} (h : isOpener value = true) :
    ∃ closer, (value, closer) ∈ brackets ∧ brackets.lookup value = some closer := by
  have hall : ∀ v ∈ brackets.map Prod.fst,
      ∃ pair ∈ brackets, pair.1 = v ∧ brackets.lookup v = some pair.2 := by decide
  obtain ⟨pair, hpair, rfl, hlookup⟩ := hall value (List.contains_iff_mem.1 h)
  exact ⟨pair.2, hpair, hlookup⟩

/-- From one place to another, the brackets of a kind are higher than at `i`, and behind the second place
they are as high. -/
structure PartnerFrom (tokens : Array Token) (opener : String) (i k j : Nat) : Prop where
  /-- The second place is not before the first. -/
  le : k ≤ j
  /-- A token stands there. -/
  lt_size : j < tokens.size
  /-- The places before are higher. -/
  higher : ∀ n, k ≤ n → n ≤ j →
    height (.ofOpener opener) tokens i < height (.ofOpener opener) tokens n
  /-- The place behind is as high. -/
  level : height (.ofOpener opener) tokens (j + 1) = height (.ofOpener opener) tokens i

/-- What a walk to the partner of the bracket at `i` finds from `k` on: the first token behind which the
brackets of its kind are as high as at `i`, or none, if they stay higher. -/
def Finds (tokens : Array Token) (opener : String) (i k : Nat) : Option Int → Prop
  | some found => ∃ j : Nat, found = j ∧ PartnerFrom tokens opener i k j
  | none => ∀ j, k ≤ j → j ≤ tokens.size →
      height (.ofOpener opener) tokens i < height (.ofOpener opener) tokens j

theorem Finds.of_succ {opener : String} {found : Option Int} (h : Finds tokens opener i (k + 1) found)
    (hhigh : height (.ofOpener opener) tokens i < height (.ofOpener opener) tokens k) :
    Finds tokens opener i k found := by
  cases found with
  | some found =>
    obtain ⟨j, hfound, hpartner⟩ := h
    refine ⟨j, hfound, Nat.le_of_succ_le hpartner.le, hpartner.lt_size, fun n hlo hhi => ?_,
      hpartner.level⟩
    rcases Nat.eq_or_lt_of_le hlo with rfl | hlo
    · exact hhigh
    · exact hpartner.higher n hlo hhi
  | none =>
    intro j hlo hhi
    rcases Nat.eq_or_lt_of_le hlo with rfl | hlo
    · exact hhigh
    · exact h j hlo hhi

/-- **A walk that counts one kind of brackets finds the partner.**  The count is the height above that
of the bracket. -/
theorem finds_closingFrom {opener closer : String} (hpair : (opener, closer) ∈ brackets) (depth : Nat)
    (hdepth : (depth : Int) =
      height (.ofOpener opener) tokens k - height (.ofOpener opener) tokens i)
    (hpos : 0 < depth) (hk : k ≤ tokens.size) :
    Finds tokens opener i k (closingFrom opener closer depth k (tokens.toList.drop k)) := by
  obtain ⟨n, hn⟩ := Nat.exists_eq_add_of_le hk
  induction n generalizing k depth with
  | zero =>
    rw [List.drop_eq_nil_of_le (by rw [Array.length_toList]; omega)]
    intro j hlo hhi
    obtain rfl : j = k := by omega
    omega
  | succ n ih =>
    obtain ⟨t, ht⟩ : ∃ t, tokens[k]? = some t :=
      ⟨_, Array.getElem?_eq_getElem (show k < tokens.size by omega)⟩
    have hnext := height_succ (m := .ofOpener opener) ht
    rw [weight_ofOpener hpair] at hnext
    rw [drop_eq_cons ht, closingFrom]
    by_cases hopen : t.value = opener
    · rw [if_pos hopen] at hnext ⊢
      exact (ih (depth + 1) (by omega) (by omega) (by omega) (by omega)).of_succ (by omega)
    rw [if_neg hopen] at hnext ⊢
    by_cases hclose : t.value = closer
    · rw [if_pos hclose] at hnext ⊢
      by_cases hone : depth = 1
      · rw [if_pos hone]
        refine ⟨k, rfl, le_rfl, by omega, fun n hlo hhi => ?_, by omega⟩
        obtain rfl : n = k := by omega
        omega
      · rw [if_neg hone]
        exact (ih (depth - 1) (by omega) (by omega) (by omega) (by omega)).of_succ (by omega)
    · rw [if_neg hclose] at hnext ⊢
      exact (ih depth (by omega) hpos (by omega) (by omega)).of_succ (by omega)

/-- **The partner of a bracket is found behind it, unless the bracket is unclosed.** -/
theorem closing_cases {t : Token} (ht : src.tokens[i]? = some t) (hopener : isOpener t.value = true) :
    (¬ Unclosed src.tokens i ∧ ∃ j : Nat, PartnerFrom src.tokens t.value i (i + 1) j ∧
        src.closing i = .ok (j : Int)) ∨
      (Unclosed src.tokens i ∧ src.closing i = .error (.unbalanced t.value t.position)) := by
  obtain ⟨closer, hpair, hlookup⟩ := exists_pair_of_isOpener hopener
  have hnext := height_succ (m := .ofOpener t.value) ht
  rw [weight_ofOpener hpair, if_pos rfl] at hnext
  have hsize : i < src.tokens.size := (Array.getElem?_eq_some_iff.1 ht).1
  have hclosing : src.closing i =
      match closingFrom t.value closer 1 (i + 1 : Nat) (src.tokens.toList.drop (i + 1)) with
      | some partner => .ok partner
      | none => .error (.unbalanced t.value t.position) := by
    rw [closing, token_natCast ht, tokensFrom_natCast]
    simp only [bind, Except.bind, hlookup]
    rw [drop_eq_cons ht, closingFrom, if_pos rfl]
    rfl
  have hfinds := finds_closingFrom (i := i) (k := i + 1) hpair 1 (by omega) Nat.one_pos hsize
  rw [hclosing]
  cases hfound : closingFrom t.value closer 1 (i + 1 : Nat) (src.tokens.toList.drop (i + 1)) with
  | some found =>
    rw [hfound] at hfinds
    obtain ⟨j, rfl, hpartner⟩ := hfinds
    refine .inl ⟨?_, j, hpartner, rfl⟩
    rintro ⟨u, hu, -, hhigh⟩
    obtain rfl := Option.some.inj (ht.symm.trans hu)
    have hlt := hhigh (j + 1) (by have := hpartner.le; omega) hpartner.lt_size
    have := hpartner.level
    omega
  | none =>
    rw [hfound] at hfinds
    exact .inr ⟨⟨t, ht, hopener, hfinds⟩, rfl⟩

theorem PartnerFrom.unique {opener : String} {j j' : Nat} (h : PartnerFrom tokens opener i k j)
    (h' : PartnerFrom tokens opener i k j') : j = j' := by
  -- The place behind the first of two would be higher and as high.
  have hnot : ∀ {m n : Nat}, PartnerFrom tokens opener i k m → PartnerFrom tokens opener i k n →
      ¬ m < n := by
    intro m n hm hn hlt
    have hle := hm.le
    have hhigh := hn.higher (m + 1) (by omega) hlt
    have hlevel := hm.level
    omega
  exact Nat.le_antisymm (Nat.not_lt.1 (hnot h' h)) (Nat.not_lt.1 (hnot h h'))

/-- The partner of a bracket is the one that is found. -/
theorem closing_of_partnerFrom {j : Nat} {value : String} (hstands : Stands src.tokens i value)
    (hopener : isOpener value = true) (hpartner : PartnerFrom src.tokens value i (i + 1) j) :
    src.closing i = .ok (j : Int) := by
  obtain ⟨t, ht, rfl⟩ := hstands
  rcases closing_cases ht hopener with ⟨-, found, hfound, hclosing⟩ | ⟨⟨u, hu, -, hhigh⟩, -⟩
  · rw [hclosing, hpartner.unique hfound]
  · obtain rfl := Option.some.inj (ht.symm.trans hu)
    have hle := hpartner.le
    have hlt := hhigh (j + 1) (by omega) hpartner.lt_size
    have hlevel := hpartner.level
    omega

theorem not_unclosed_of_closing {i : Nat} {value : String} {partner : Int}
    (h : src.closing i = .ok partner) (hstands : Stands src.tokens i value)
    (hopener : isOpener value = true) : ¬ Unclosed src.tokens i := by
  obtain ⟨t, ht, rfl⟩ := hstands
  rcases closing_cases ht hopener with ⟨hclosed, -⟩ | ⟨-, hfault⟩
  · exact hclosed
  · rw [hfault] at h
    cases h

end SourceDoc.TokenText
