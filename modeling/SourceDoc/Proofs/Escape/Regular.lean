import SourceDoc.Proofs.Escape.Origins
import SourceDoc.Proofs.Escape.Search

/-!
# When the table of offsets follows the decoder

The table of offsets leads from each code point to the part of the source it was read from
(`Follows`) exactly if the source is `Regular`: every escape has four hexadecimal digits behind its
`u`s, and the source does not end inside an escape that has text before it
(`follows_offsetsFrom_iff`).  The decoder is more lenient than the table, so both conditions can
fail on a source that is decoded.
-/

namespace SourceDoc.Escape

open WideChar (char)

/-! ### Regular sources -/

/-- The sources, and the rests of sources, in which every escape is written with four hexadecimal
digits.  `fresh` tells whether no text stands between the rest and the previous escape or the start;
only then may the source end behind the `u`s of an escape. -/
inductive Regular : Bool → List WideChar → Prop
  | nil {fresh : Bool} : Regular fresh []
  | plain {fresh : Bool} {c : WideChar} {rest : List WideChar} :
      c ≠ char '\\' → Regular false rest → Regular fresh (c :: rest)
  | lone {fresh : Bool} : Regular fresh [char '\\']
  | pair {fresh : Bool} {c : WideChar} {rest : List WideChar} :
      c ≠ char 'u' → Regular false rest → Regular fresh (char '\\' :: c :: rest)
  | cut {n : Nat} : Regular true (char '\\' :: List.replicate (n + 1) (char 'u'))
  | escape {fresh : Bool} {n : Nat} {digits rest : List WideChar} :
      digits.length = 4 → digits.all isHexDigit → Regular true rest →
      Regular fresh (char '\\' :: (List.replicate (n + 1) (char 'u') ++ (digits ++ rest)))

theorem regular_plain_iff {fresh : Bool} {c : WideChar} {rest : List WideChar} (hc : c ≠ char '\\') :
    Regular fresh (c :: rest) ↔ Regular false rest := by
  constructor
  · intro h
    cases h with
    | plain _ h => exact h
    | lone => exact absurd rfl hc
    | pair => exact absurd rfl hc
    | cut => exact absurd rfl hc
    | escape => exact absurd rfl hc
  · exact .plain hc

theorem regular_pair_iff {fresh : Bool} {c : WideChar} {rest : List WideChar} (hc : c ≠ char 'u') :
    Regular fresh (char '\\' :: c :: rest) ↔ Regular false rest := by
  constructor
  · intro h
    generalize htext : char '\\' :: c :: rest = text at h
    cases h with
    | nil => cases htext
    | plain hd => exact absurd (List.cons.inj htext).1.symm hd
    | lone => cases htext
    | pair _ h =>
      cases htext
      exact h
    | cut => exact absurd (List.cons.inj (List.cons.inj htext).2).1 hc
    | escape => exact absurd (List.cons.inj (List.cons.inj htext).2).1 hc
  · exact .pair hc

/-- Where a run of `u`s ends is determined by what stands behind it. -/
theorem replicate_u_append_inj {m n : Nat} {s t : List WideChar} (hs : s.head? ≠ some (char 'u'))
    (ht : t.head? ≠ some (char 'u'))
    (h : List.replicate m (char 'u') ++ s = List.replicate n (char 'u') ++ t) : m = n ∧ s = t := by
  induction m generalizing n with
  | zero =>
    cases n with
    | zero => exact ⟨rfl, h⟩
    | succ n =>
      rw [List.replicate_zero, List.nil_append] at h
      rw [h] at hs
      exact absurd rfl hs
  | succ m ih =>
    cases n with
    | zero =>
      rw [List.replicate_zero, List.nil_append] at h
      rw [← h] at ht
      exact absurd rfl ht
    | succ n =>
      obtain ⟨hmn, hst⟩ := ih (List.cons.inj h).2
      exact ⟨congrArg (· + 1) hmn, hst⟩

theorem regular_cut_iff {fresh : Bool} {n : Nat} :
    Regular fresh (char '\\' :: List.replicate (n + 1) (char 'u')) ↔ fresh = true := by
  constructor
  · intro h
    generalize htext : char '\\' :: List.replicate (n + 1) (char 'u') = text at h
    cases h with
    | nil => cases htext
    | plain hd => exact absurd (List.cons.inj htext).1.symm hd
    | lone => cases htext
    | pair hd => exact absurd (List.cons.inj (List.cons.inj htext).2).1.symm hd
    | cut => rfl
    | escape hlen hhex =>
      -- All that stands behind the backslash are `u`s, so there are no digits.
      have h := (List.cons.inj htext).2
      rw [← List.append_nil (List.replicate (n + 1) (char 'u'))] at h
      obtain ⟨-, hnil⟩ := replicate_u_append_inj (by simp) (head?_digits_append hlen hhex) h
      rw [(List.append_eq_nil_iff.1 hnil.symm).1] at hlen
      cases hlen
  · rintro rfl
    exact .cut

theorem regular_escape_iff {fresh : Bool} {n : Nat} {c : WideChar} {rest : List WideChar}
    (hc : c ≠ char 'u') :
    Regular fresh (char '\\' :: (List.replicate (n + 1) (char 'u') ++ c :: rest)) ↔
      (((c :: rest).take 4).length = 4 ∧ ((c :: rest).take 4).all isHexDigit) ∧
        Regular true ((c :: rest).drop 4) := by
  have hhead : (c :: rest).head? ≠ some (char 'u') := by simpa using hc
  constructor
  · intro h
    generalize htext : char '\\' :: (List.replicate (n + 1) (char 'u') ++ c :: rest) = text at h
    cases h with
    | nil => cases htext
    | plain hd => exact absurd (List.cons.inj htext).1.symm hd
    | lone => cases htext
    | pair hd => exact absurd (List.cons.inj (List.cons.inj htext).2).1.symm hd
    | cut =>
      have h := (List.cons.inj htext).2.trans (List.append_nil _).symm
      cases (replicate_u_append_inj hhead (by simp) h).2
    | @escape _ m digits tail hlen hhex htail =>
      obtain ⟨-, hrest⟩ := replicate_u_append_inj hhead (head?_digits_append hlen hhex)
        (List.cons.inj htext).2
      rw [hrest, List.take_left' hlen, List.drop_left' hlen]
      exact ⟨⟨hlen, hhex⟩, htail⟩
  · rintro ⟨⟨hlen, hhex⟩, htail⟩
    have h := @Regular.escape fresh n _ _ hlen hhex htail
    rwa [List.take_append_drop] at h

/-! ### The table beside the decoder -/

/-- A table of offsets leads to the origins of code points: the entry of each code point is where its
origin begins, and the next entry is where it ends. -/
def Follows (offsets : List Nat) (origins : List Origin) : Prop :=
  offsets.length = origins.length + 1 ∧
    ∀ i o, origins[i]? = some o → offsets[i]? = some o.first ∧ offsets[i + 1]? = some o.stop

theorem follows_nil (place : Nat) : Follows [place] [] :=
  ⟨rfl, fun i o h => by simp at h⟩

theorem follows_cons_iff {place : Nat} {offsets : List Nat} {o : Origin} {origins : List Origin} :
    Follows (place :: offsets) (o :: origins) ↔
      place = o.first ∧ offsets.head? = some o.stop ∧ Follows offsets origins := by
  constructor
  · rintro ⟨hlen, h⟩
    obtain ⟨hfirst, hstop⟩ := h 0 o rfl
    refine ⟨by simpa using hfirst, by simpa [List.head?_eq_getElem?] using hstop,
      by simpa using hlen, fun i o' ho' => ?_⟩
    simpa using h (i + 1) o' (by simpa using ho')
  · rintro ⟨rfl, hstop, hlen, h⟩
    refine ⟨by simpa using hlen, fun i o' ho' => ?_⟩
    cases i with
    | zero =>
      obtain rfl : o = o' := by simpa using ho'
      exact ⟨rfl, by simpa [List.head?_eq_getElem?] using hstop⟩
    | succ i => simpa using h i o' (by simpa using ho')

/-- Characters that stand for themselves have consecutive offsets. -/
theorem follows_literals (place n : Nat) :
    Follows (offsetsFrom place true 0 (List.replicate n (char 'u')))
      (Origin.literals place (List.replicate n (char 'u'))) := by
  induction n generalizing place with
  | zero => exact follows_nil place
  | succ n ih =>
    rw [List.replicate_succ, offsetsFrom_plain place _ (by decide), Origin.literals,
      follows_cons_iff]
    exact ⟨rfl, head?_offsetsFrom _ _ _, ih _⟩

/-- Where a source ends inside an escape, the text since the previous escape is written once more.  The
table goes on, and would have to go back for it. -/
theorem follows_cut_iff {piece : List WideChar} {place n : Nat} (hpiece : piece.length ≤ place) :
    Follows (offsetsFrom place true 0 (char '\\' :: List.replicate (n + 1) (char 'u')))
        (Origin.literals (place - piece.length)
          (piece.reverse ++ char '\\' :: List.replicate (n + 1) (char 'u'))) ↔ piece.isEmpty = true := by
  have htable : offsetsFrom place true 0 (char '\\' :: List.replicate (n + 1) (char 'u')) =
      place :: (place + 1) :: offsetsFrom (place + 2) true 0 (List.replicate n (char 'u')) := by
    have h := @offsetsFrom_unwritten place n [] (by simp) (by simp)
    simpa using h
  rw [htable]
  cases piece with
  | nil =>
    refine iff_of_true ?_ rfl
    rw [List.reverse_nil, List.nil_append, Origin.literals, follows_cons_iff,
      List.replicate_succ, Origin.literals, follows_cons_iff]
    exact ⟨rfl, rfl, rfl, head?_offsetsFrom _ _ _, follows_literals _ n⟩
  | cons c piece =>
    refine iff_of_false ?_ (by simp)
    obtain ⟨d, chars, hd⟩ : ∃ d chars,
        (c :: piece).reverse ++ char '\\' :: List.replicate (n + 1) (char 'u') = d :: chars := by
      cases h : (c :: piece).reverse ++ char '\\' :: List.replicate (n + 1) (char 'u') with
      | nil => simp at h
      | cons d chars => exact ⟨d, chars, rfl⟩
    rw [hd, Origin.literals, follows_cons_iff]
    rintro ⟨hplace, -⟩
    have hplace : place = place - (piece.length + 1) := hplace
    rw [List.length_cons] at hpiece
    omega

/-- **The table of offsets follows the decoder exactly on regular sources.**  The induction goes along
the reading of the source; `piece` is the text since the previous escape, and `place` where the rest
begins. -/
theorem follows_offsetsFrom_iff (text : List WideChar) :
    ∀ (piece : List WideChar) (place : Nat) (origins : List Origin), piece.length ≤ place →
      traceFrom piece place .plain text = .ok origins →
      (Follows (offsetsFrom place true 0 text) origins ↔ Regular piece.isEmpty text) := by
  induction text using scan_induction with
  | nil =>
    intro piece place origins _ htrace
    cases htrace
    exact iff_of_true (follows_nil place) .nil
  | plain c rest hc ih =>
    intro piece place origins hpiece htrace
    rw [traceFrom_plain _ _ _ hc] at htrace
    obtain ⟨tail, htail, rfl⟩ := Except.map_eq_ok htrace
    rw [offsetsFrom_plain _ _ hc, follows_cons_iff, regular_plain_iff hc, head?_offsetsFrom,
      ih _ _ tail (by simpa using hpiece) htail]
    simp
  | lone =>
    intro piece place origins _ htrace
    rw [traceFrom_lone] at htrace
    cases htrace
    refine iff_of_true ?_ .lone
    rw [offsetsFrom_lone, follows_cons_iff]
    exact ⟨rfl, rfl, follows_nil _⟩
  | pair c rest hc ih =>
    intro piece place origins hpiece htrace
    rw [traceFrom_pair _ _ _ hc] at htrace
    obtain ⟨tail, htail, rfl⟩ := Except.map_eq_ok htrace
    rw [offsetsFrom_pair _ _ hc, follows_cons_iff, follows_cons_iff, regular_pair_iff hc,
      head?_offsetsFrom, ih _ _ tail (by simpa using hpiece) htail]
    simp
  | cut n =>
    intro piece place origins hpiece htrace
    rw [traceFrom_cut] at htrace
    cases htrace
    rw [regular_cut_iff, follows_cut_iff hpiece]
  | escape n c rest hc ih =>
    intro piece place origins hpiece htrace
    rw [traceFrom_escape _ _ _ _ hc] at htrace
    obtain ⟨point, -, htrace⟩ := Except.bind_eq_ok htrace
    obtain ⟨tail, htail, htrace⟩ := Except.bind_eq_ok htrace
    cases htrace
    have hhead : (c :: rest).head? ≠ some (char 'u') := by simpa using hc
    rw [regular_escape_iff hc]
    by_cases hwritten : ((c :: rest).take 4).length = 4 ∧ ((c :: rest).take 4).all isHexDigit
    · rw [offsetsFrom_written _ _ hhead hwritten.1 hwritten.2, follows_cons_iff,
        head?_offsetsFrom, ih [] _ tail (by simp) htail, hwritten.1]
      exact ⟨fun h => ⟨⟨rfl, hwritten.2⟩, h.2.2⟩, fun h => ⟨rfl, rfl, h.2⟩⟩
    · -- The entry behind the backslash is that of the first `u`, and the escape goes on.
      rw [offsetsFrom_unwritten _ _ hhead hwritten, follows_cons_iff]
      refine iff_of_false ?_ (fun h => hwritten h.1)
      rintro ⟨-, hstop, -⟩
      have hstop : place + 1 = place + n + 2 + ((c :: rest).take 4).length := by
        simpa using hstop
      omega

/-! ### Cutting the source by the table -/

/-- Cutting the source between neighbouring entries of a table gives, for each code point, a text that
writes it. -/
def Leads (source : List WideChar) (offsets : List Nat) (decoded : List WideChar) : Prop :=
  offsets.length = decoded.length + 1 ∧
    ∀ i point, decoded[i]? = some point → ∃ lo hi, offsets[i]? = some lo ∧
      offsets[i + 1]? = some hi ∧ Writes ((source.drop lo).take (hi - lo)) point

theorem leads_of_follows {source : List WideChar} {offsets : List Nat} {origins : List Origin}
    (hfollows : Follows offsets origins)
    (hwrites : ∀ o ∈ origins, Writes (o.text source) o.point) :
    Leads source offsets (origins.map (·.point)) := by
  obtain ⟨hlen, h⟩ := hfollows
  refine ⟨by rw [hlen, List.length_map], fun i point hpoint => ?_⟩
  rw [List.getElem?_map, Option.map_eq_some_iff] at hpoint
  obtain ⟨o, ho, rfl⟩ := hpoint
  obtain ⟨hfirst, hstop⟩ := h i o ho
  exact ⟨o.first, o.stop, hfirst, hstop, hwrites o (List.mem_of_getElem? ho)⟩

/-- **When the table of offsets is right.**  In a source with escapes that is decoded, every code point
comes from a part of the source that writes it, and the table of offsets leads to these parts exactly
if the source is regular; cutting a regular source by the table gives what each code point was written
as. -/
theorem offsets_follow_trace_iff {source : List WideChar} {decoded : List WideChar}
    (hescape : mentionsEscape source = true) (hdecoded : decode source = .ok decoded) :
    ∃ offsets origins, offsets? source = some offsets ∧ trace source = .ok origins ∧
      origins.map (·.point) = decoded ∧ (∀ o ∈ origins, Writes (o.text source) o.point) ∧
      (Follows offsets origins ↔ Regular true source) ∧
      (Regular true source → Leads source offsets decoded) := by
  rw [← map_point_trace] at hdecoded
  obtain ⟨origins, htrace, rfl⟩ := Except.map_eq_ok hdecoded
  have hwrites := writes_of_traceFrom source [] 0 origins (by simp) rfl htrace
  have hiff := follows_offsetsFrom_iff source [] 0 origins (by simp) htrace
  refine ⟨offsetsFrom 0 true 0 source, origins, ?_, htrace, rfl, hwrites, hiff, fun h => ?_⟩
  · rw [offsets?_eq, if_pos hescape]
  · exact leads_of_follows (hiff.2 h) hwrites

/-- A pair of backslashes before a `u`, and an escape with two `u`s. -/
def pairThenEscape : List WideChar := WideString.toList "\\\\u\\uu0041"

/-- A doubled backslash opens no escape, and further `u`s change nothing. -/
theorem offsets_follow_trace_doubled :
    mentionsEscape pairThenEscape = true ∧
    decode pairThenEscape = .ok (WideString.toList "\\\\uA") ∧
    Regular true pairThenEscape ∧
    ∃ offsets, offsets? pairThenEscape = some offsets ∧
      Leads pairThenEscape offsets (WideString.toList "\\\\uA") := by
  have hescape : mentionsEscape pairThenEscape = true := by decide
  have hdecoded : decode pairThenEscape = .ok (WideString.toList "\\\\uA") := by rfl
  have hlast : Regular false (char '\\' :: (List.replicate 2 (char 'u') ++
      ([char '0', char '0', char '4', char '1'] ++ []))) :=
    .escape rfl rfl .nil
  have hregular : Regular true pairThenEscape := .pair (by decide) (.plain (by decide) hlast)
  obtain ⟨offsets, _, hoffsets, -, -, -, -, hleads⟩ := offsets_follow_trace_iff hescape hdecoded
  exact ⟨hescape, hdecoded, hregular, offsets, hoffsets, hleads hregular⟩

/-- An escape with a sign before its digits. -/
def signedEscape : List WideChar := WideString.toList "\\u+041"

/-- A sign among the digits is decoded, and the table counts every character of the escape. -/
theorem not_leads_signed_escape :
    mentionsEscape signedEscape = true ∧ decode signedEscape = .ok [char 'A'] ∧
      ∃ offsets, offsets? signedEscape = some offsets ∧ ¬ Leads signedEscape offsets [char 'A'] := by
  refine ⟨by decide, by rfl, [0, 1, 2, 3, 4, 5, 6], by rfl, ?_⟩
  rintro ⟨hlen, -⟩
  simp at hlen

end SourceDoc.Escape
