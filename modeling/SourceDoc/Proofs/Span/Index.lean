import SourceDoc.Proofs.Token.Reading
import SourceDoc.Span.TokenText

/-!
# Tokens by index

Tokens are looked up by an index that may also count from the end.  For an index that counts from the
start these lemmas say what is found; a position is looked up by `indexOf`, and as tokens have
different positions, what is found is the token itself (`indexOf_position`).
-/

namespace SourceDoc.TokenText

open SourceDoc.Token

variable {src : TokenText}

@[simp] theorem token?_natCast (src : TokenText) (i : Nat) : src.token? i = src.tokens[i]? := by
  rw [token?, if_pos (Int.natCast_nonneg i), Int.toNat_natCast]

theorem token_natCast {i : Nat} {t : Token} (h : src.tokens[i]? = some t) : src.token i = .ok t := by
  rw [token, token?_natCast, h]

@[simp] theorem tokensFrom_natCast (src : TokenText) (i : Nat) :
    src.tokensFrom i = .ok (src.tokens.toList.drop i) := by
  rw [tokensFrom, if_pos (Int.natCast_nonneg i), Int.toNat_natCast]

@[simp] theorem text?_natCast (src : TokenText) (i : Nat) :
    src.text? i = src.tokens[i]?.map (·.text) := by
  rw [text?, if_pos (Int.natCast_nonneg i), Int.toNat_natCast]

theorem drop_eq_cons {tokens : Array Token} {i : Nat} {t : Token}
    (h : tokens[i]? = some t) :
    tokens.toList.drop i = t :: tokens.toList.drop (i + 1) := by
  obtain ⟨hlt, rfl⟩ := Array.getElem?_eq_some_iff.1 h
  rw [← Array.getElem_toList]
  exact List.drop_eq_getElem_cons (by simpa using hlt)

/-- The tokens have different positions. -/
def Spread (src : TokenText) : Prop :=
  ∀ {i j : Nat} {t u : Token}, src.tokens[i]? = some t → src.tokens[j]? = some u →
    t.position = u.position → i = j

theorem spread_of_ofSource {source : List WideChar} {data : List WideChar} {tokens : List Token}
    (h : ofSource source = .ok (data, tokens)) (written : Option (List WideChar)) :
    Spread (ofTokens data tokens written) := by
  obtain ⟨items, hreading, rfl⟩ := exists_reading_of_ofSource h
  intro i j t u hi hj
  simp only [ofTokens, List.getElem?_toArray] at hi hj
  exact hreading.position_injective hi hj

/-- **A token is found by its position.** -/
theorem indexOf_position (hspread : Spread src) {i : Nat} {t : Token}
    (h : src.tokens[i]? = some t) (node : String) :
    src.indexOf node (some t.position) = .ok (i : Int) := by
  have hsize : i < src.size := (Array.getElem?_eq_some_iff.1 h).1
  rw [indexOf, Option.bind_some]
  cases hfind : (List.range src.size).reverse.find?
      fun j => src.tokens[j]?.any (·.position == t.position) with
  | none =>
    have := List.find?_eq_none.1 hfind i (List.mem_reverse.2 (List.mem_range.2 hsize))
    rw [h] at this
    exact absurd (beq_self_eq_true _) this
  | some j =>
    have hj := List.find?_some hfind
    cases hu : src.tokens[j]? with
    | none => rw [hu] at hj; cases hj
    | some u =>
      rw [hu] at hj
      rw [hspread hu h (beq_iff_eq.1 hj)]

end SourceDoc.TokenText
