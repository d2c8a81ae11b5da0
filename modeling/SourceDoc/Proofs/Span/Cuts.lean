import SourceDoc.Proofs.Escape.Slices
import SourceDoc.Proofs.Token.Lines

/-!
# Texts between tokens

The text from one token to another is cut out between two places of the decoded text, which are counted
from lines and columns (`places`); these places are then looked up in the table of offsets (`slice`).
They are never behind the end of the text (`le_of_places`), and no backslash stands at the first of
them, if the tokens are found where they are sought (`ne_backslash_of_places`).
-/

namespace SourceDoc.Token

open TokenText

/-- No token of a reading begins with a backslash. -/
theorem Reading.head_text {place : Place} {text : List WideChar} {items : List (Place × Token)}
    (h : Reading place text items) :
    ∀ t ∈ items.map Prod.snd, ∃ c rest, t.text.toList = c :: rest ∧ c ≠ .char '\\' := by
  induction h with
  | done => nofun
  | gap _ _ ih => exact ih
  | @token place c text rest token items hlexeme htext _ _ ih =>
    intro t ht
    rcases List.mem_cons.1 ht with rfl | ht
    · exact ⟨c, text, by rw [htext], (lexed_of_lexeme hlexeme).ne_backslash⟩
    · exact ih t ht

/-- A token is sought where it was read or before. -/
theorem Reading.offset_le {data : List WideChar} {items : List (Place × Token)}
    (h : Reading .start data items) (written : Option (List WideChar)) {i : Nat} {place : Place}
    {t : Token} (hi : items[i]? = some (place, t)) :
    ∃ start, (ofTokens data (items.map Prod.snd) written).offset i = .ok start ∧
      start + t.text.length ≤ data.length := by
  obtain ⟨read, later, hdata, hposition, hcounted⟩ := h.counted hi
  obtain ⟨start, hstart, hle, -⟩ := hcounted.lineStarts (t.text.toList ++ later)
  rw [← hdata] at hstart
  have ht : (ofTokens data (items.map Prod.snd) written).tokens[i]? = some t := by
    simp [ofTokens, hi]
  have hline : t.position.line = place.line := by rw [hposition]
  have hcolumn : t.position.column = place.column := by rw [hposition]
  refine ⟨_, offset_of_lineStarts ht (by rw [hline]; exact hstart), ?_⟩
  have hlength := congrArg List.length hdata
  rw [List.length_append, List.length_append, ← hcounted.index_eq] at hlength
  rw [hcolumn, WideString.length]
  omega

end SourceDoc.Token

namespace SourceDoc.TokenText

open SourceDoc.Token

variable {src : TokenText}

/-! ### Places -/

/-- The places in the decoded text where the first token begins and where the last one ends. -/
def places (src : TokenText) (first last : Int) : Except SpanFault (Nat × Nat) := do
  let start ← src.offset first
  let lastStart ← src.offset last
  let length := (← src.token last).text.length
  return (start, lastStart + length)

/-- The part of the source between two places of the decoded text. -/
def slice (src : TokenText) (lo hi : Nat) : Except SpanFault WideString := do
  let lo ← src.sourcePlace lo
  let hi ← src.sourcePlace hi
  return ⟨(src.source.drop lo).take (hi - lo)⟩

/-- **The text from one token to another is the part of the source between their places.** -/
theorem cut_eq (src : TokenText) (first last : Int) :
    src.cut first last =
      if last < first then .ok "" else src.places first last >>= fun p => src.slice p.1 p.2 := by
  rw [cut]
  split
  · rfl
  · rw [places]
    cases src.offset first with
    | error fault => rfl
    | ok start =>
      cases src.offset last with
      | error fault => rfl
      | ok lastStart => cases src.token last <;> rfl

theorem exists_of_token {i : Int} {t : Token} (h : src.token i = .ok t) :
    ∃ k : Nat, src.tokens[k]? = some t := by
  rw [token] at h
  split at h
  · rename_i found hfound
    cases h
    rw [token?] at hfound
    split at hfound
    · exact ⟨_, hfound⟩
    · split at hfound
      · exact ⟨_, hfound⟩
      · cases hfound
  · cases h

theorem offset_congr {i j : Int} (h : src.token i = src.token j) : src.offset i = src.offset j := by
  rw [offset, offset, h]

/-- A place that is counted is that of a token. -/
theorem exists_of_offset {i : Int} {start : Nat} (h : src.offset i = .ok start) :
    ∃ (k : Nat) (t : Token), src.tokens[k]? = some t ∧ src.token i = .ok t ∧
      src.offset k = .ok start := by
  obtain ⟨t, ht, -⟩ := Except.bind_eq_ok h
  obtain ⟨k, hk⟩ := exists_of_token ht
  exact ⟨k, t, hk, ht, (offset_congr (ht.trans (token_natCast hk).symm)).symm.trans h⟩

/-- The places that a text is cut out between are those of two tokens. -/
theorem exists_of_places {first last : Int} {lo hi : Nat} (h : src.places first last = .ok (lo, hi)) :
    (∃ (k : Nat) (t : Token), src.tokens[k]? = some t ∧ src.offset k = .ok lo) ∧
      ∃ (k : Nat) (t : Token) (start : Nat), src.tokens[k]? = some t ∧ src.offset k = .ok start ∧
        hi = start + t.text.length := by
  obtain ⟨start, hstart, h⟩ := Except.bind_eq_ok h
  obtain ⟨lastStart, hlast, h⟩ := Except.bind_eq_ok h
  obtain ⟨t, ht, h⟩ := Except.bind_eq_ok h
  cases h
  obtain ⟨k, _, hk, -, hoffset⟩ := exists_of_offset hstart
  obtain ⟨m, u, hm, hu, hoffset'⟩ := exists_of_offset hlast
  obtain rfl : t = u := Except.ok.inj (ht.symm.trans hu)
  exact ⟨⟨k, _, hk, hoffset⟩, m, t, lastStart, hm, hoffset', rfl⟩

/-- Every token is sought at a place where the text has room for it. -/
def Placed (src : TokenText) : Prop :=
  ∀ (i : Nat) (t : Token), src.tokens[i]? = some t →
    ∃ start, src.offset i = .ok start ∧ start + t.text.length ≤ src.data.length

theorem placed_of_ofSource {source : List WideChar} {data : List WideChar} {tokens : List Token}
    (h : ofSource source = .ok (data, tokens)) (written : Option (List WideChar)) :
    Placed (ofTokens data tokens written) := by
  obtain ⟨items, hreading, rfl⟩ := exists_reading_of_ofSource h
  intro i t ht
  simp only [ofTokens, List.getElem?_toArray, List.getElem?_map, Option.map_eq_some_iff] at ht
  obtain ⟨⟨place, t⟩, hi, rfl⟩ := ht
  exact hreading.offset_le written hi

/-- **The places that a text is cut out between are not behind the end of the decoded text.** -/
theorem le_of_places (hplaced : Placed src) {first last : Int} {lo hi : Nat}
    (h : src.places first last = .ok (lo, hi)) : lo ≤ src.data.length ∧ hi ≤ src.data.length := by
  obtain ⟨⟨k, t, hk, hlo⟩, m, u, start, hm, hstart, rfl⟩ := exists_of_places h
  obtain ⟨lo', hlo', hle⟩ := hplaced k t hk
  obtain ⟨start', hstart', hle'⟩ := hplaced m u hm
  obtain rfl := Except.ok.inj (hlo.symm.trans hlo')
  obtain rfl := Except.ok.inj (hstart.symm.trans hstart')
  exact ⟨by omega, hle'⟩

/-- **No text begins with a backslash, if the tokens are found where they are sought.** -/
theorem ne_backslash_of_places (hfound : Found src)
    (htexts : ∀ t ∈ src.tokens, ∃ c rest, t.text.toList = c :: rest ∧ c ≠ .char '\\')
    {first last : Int} {lo hi : Nat} (h : src.places first last = .ok (lo, hi)) :
    src.data[lo]? ≠ some (.char '\\') := by
  obtain ⟨⟨k, t, hk, hlo⟩, -⟩ := exists_of_places h
  obtain ⟨c, rest, htext, hc⟩ := htexts t (Array.mem_of_getElem? hk)
  obtain ⟨lo', hlo', htake, -⟩ := hfound k t hk
  obtain rfl := Except.ok.inj (hlo.symm.trans hlo')
  rw [← List.head?_drop]
  cases hdrop : src.data.drop lo with
  | nil => nofun
  | cons d more =>
    rw [hdrop, WideString.length, htext, List.length_cons, List.take_succ_cons] at htake
    obtain rfl := (List.cons.inj htake).1
    exact fun h => hc (Option.some.inj h)

end SourceDoc.TokenText
