import SourceDoc.Proofs.Escape.Slices

/-!
# Gaps in the table of offsets

A source is read from left to right: a backslash is taken together with the next character, unless it
begins an escape, which is taken as a whole (`escapesFrom`).  The table of offsets, which is made from
what a search for a pattern finds, counts character by character and leaves a gap at each escape that is
found in this way, as wide as the escape is long (`gap_offsetsFrom_iff`).  Which escapes are found can be
told from the backslashes just before them: their number is even (`mem_escapesFrom_iff`).
-/

namespace SourceDoc.Escape

open WideChar (char)

/-! ### Gaps -/

/-- At an entry of a table comes a gap: the next entry is more than one higher. -/
def Gap (offsets : List Nat) (place length : Nat) : Prop :=
  1 < length ∧ [place, place + length] <:+: offsets

theorem gap_cons {offsets : List Nat} {first place length : Nat} :
    Gap (first :: offsets) place length ↔
      (1 < length ∧ place = first ∧ offsets.head? = some (place + length)) ∨
        Gap offsets place length := by
  unfold Gap
  rw [List.infix_cons_iff, List.cons_prefix_cons]
  have hhead : [place + length] <+: offsets ↔ offsets.head? = some (place + length) := by
    cases offsets <;> simp [List.cons_prefix_cons, eq_comm]
  rw [hhead, and_or_left]

theorem not_gap_singleton {first place length : Nat} : ¬ Gap [first] place length := by
  rintro ⟨-, h⟩
  simpa using h.length_le

/-- Where the table counts on by one, there is no gap. -/
theorem gap_cons_succ {place first length : Nat} {even : Bool} {text : List WideChar} :
    Gap (first :: offsetsFrom (first + 1) even 0 text) place length ↔
      Gap (offsetsFrom (first + 1) even 0 text) place length := by
  rw [gap_cons, head?_offsetsFrom, or_iff_right]
  rintro ⟨hlength, rfl, hnext⟩
  have := Option.some.inj hnext
  omega

/-- **The table leaves a gap at each escape, as wide as the escape is long, and nowhere else.** -/
theorem gap_offsetsFrom_iff {place length : Nat} (start : Nat) (text : List WideChar) :
    Gap (offsetsFrom start true 0 text) place length ↔ (place, length) ∈ escapesFrom start text := by
  fun_induction escapesFrom start text with
  | case1 start => simpa [offsetsFrom] using not_gap_singleton
  | case2 start c rest width hescape ih =>
    have hsix := six_le_of_escapeLength? hescape
    rw [offsetsFrom_of_escape start hescape, gap_cons, head?_offsetsFrom, ih, List.mem_cons,
      Prod.mk.injEq, Option.some.injEq]
    apply or_congr_left
    omega
  | case3 start rest hescape ih =>
    rw [offsetsFrom_of_backslash start hescape, gap_cons_succ, ← ih]
    cases rest with
    | nil => simp [offsetsFrom, not_gap_singleton]
    | cons d rest => rw [offsetsFrom_odd, gap_cons_succ, List.drop_one, List.tail_cons]
  | case4 start c rest hescape hc ih => rw [offsetsFrom_plain start rest hc, gap_cons_succ, ih]

/-- The last entry of a table is the end of the source. -/
theorem getLast?_offsetsFrom (place : Nat) (even : Bool) (skip : Nat) (text : List WideChar) :
    (offsetsFrom place even skip text).getLast? = some (place + text.length) := by
  induction text generalizing place even skip with
  | nil => rfl
  | cons c rest ih =>
    have hend : place + 1 + rest.length = place + (c :: rest).length := by simp; omega
    unfold offsetsFrom
    split
    · split <;> simp [List.getLast?_cons, ih, hend]
    · rw [ih, hend]

/-! ### Backslashes before an escape -/

/-- How many backslashes a text ends in. -/
def trailingBackslashes (text : List WideChar) : Nat :=
  (text.reverse.takeWhile (· == char '\\')).length

theorem trailingBackslashes_concat_backslash (text : List WideChar) :
    trailingBackslashes (text ++ [char '\\']) = trailingBackslashes text + 1 := by
  simp [trailingBackslashes]

theorem trailingBackslashes_concat {c : WideChar} (text : List WideChar) (hc : c ≠ char '\\') :
    trailingBackslashes (text ++ [c]) = 0 := by
  simp [trailingBackslashes, hc]

/-- An escape stands at a place of a source, and an even number of backslashes just before it. -/
structure EscapeAt (source : List WideChar) (place length : Nat) : Prop where
  /-- The escape is part of the source. -/
  le : place + length ≤ source.length
  /-- It is written there. -/
  written : IsEscape ((source.drop place).take length)
  /-- No backslash before it takes its own along. -/
  even : trailingBackslashes (source.take place) % 2 = 0

/-- An escape begins with a backslash. -/
theorem EscapeAt.getElem? {source : List WideChar} {place length : Nat}
    (h : EscapeAt source place length) : source[place]? = some (char '\\') := by
  obtain ⟨n, digits, htext, -⟩ := h.written
  have hhead : ((source.drop place).take length)[0]? = some (char '\\') := by simp [htext]
  rw [List.getElem?_take] at hhead
  split at hhead
  · simpa using hhead
  · cases hhead

/-- Where a scan has come to, an escape stands if the rest begins with one. -/
theorem escapeAt_length_iff {before text : List WideChar} {length : Nat}
    (heven : trailingBackslashes before % 2 = 0) :
    EscapeAt (before ++ text) before.length length ↔ escapeLength? text = some length := by
  rw [escapeLength?_eq_some_iff]
  constructor
  · intro h
    have hle := h.le
    have hwritten := h.written
    rw [List.drop_left] at hwritten
    rw [List.length_append] at hle
    exact ⟨by omega, hwritten⟩
  · rintro ⟨hle, hwritten⟩
    exact ⟨by simpa using hle, by rwa [List.drop_left], by rwa [List.take_left]⟩

/-- Where no escape stands from `start` on up to `stop`, the search may go on at `stop`. -/
theorem escapeAt_pass {source : List WideChar} {start stop place length : Nat} (hle : start ≤ stop)
    (hnone : ∀ place, start ≤ place → place < stop → ¬ EscapeAt source place length) :
    stop ≤ place ∧ EscapeAt source place length ↔ start ≤ place ∧ EscapeAt source place length := by
  constructor
  · rintro ⟨hstop, h⟩
    exact ⟨by omega, h⟩
  · rintro ⟨hstart, h⟩
    refine ⟨?_, h⟩
    by_contra hstop
    exact hnone place hstart (by omega) h

/-- No escape stands inside an escape. -/
theorem not_escapeAt_inside {before text : List WideChar} {width place length : Nat}
    (hescape : escapeLength? text = some width) (hlo : before.length < place)
    (hhi : place < before.length + width) : ¬ EscapeAt (before ++ text) place length := by
  intro h
  obtain ⟨hwidth, hwritten⟩ := escapeLength?_eq_some_iff.1 hescape
  obtain ⟨tail, d, htake, hnot⟩ := hwritten.exists_tail
  have hplace : (text.take width)[place - before.length]? = some (char '\\') := by
    rw [List.getElem?_take_of_lt (by omega), ← h.getElem?, List.getElem?_append_right (by omega)]
  rw [htake, List.getElem?_cons, if_neg (by omega)] at hplace
  exact hnot (List.mem_of_getElem? hplace)

/-- No escape begins with either character of a pair of which the first is a backslash. -/
theorem not_escapeAt_pair {before rest : List WideChar} {d : WideChar} {place length : Nat}
    (heven : trailingBackslashes before % 2 = 0)
    (hnone : escapeLength? (char '\\' :: d :: rest) = none) (hlo : before.length ≤ place)
    (hhi : place < before.length + 2) : ¬ EscapeAt (before ++ char '\\' :: d :: rest) place length := by
  intro h
  rcases Nat.eq_or_lt_of_le hlo with rfl | hlt
  · rw [escapeAt_length_iff heven, hnone] at h
    cases h
  · obtain rfl : place = before.length + 1 := by omega
    -- The second character is a backslash too, and has one more backslash before it than the first.
    obtain rfl : d = char '\\' := by simpa using h.getElem?
    have hodd := h.even
    rw [List.take_append, List.take_of_length_le (by omega), Nat.add_sub_cancel_left,
      List.take_succ_cons, List.take_zero, trailingBackslashes_concat_backslash] at hodd
    omega

/-- A pair of which the first is a backslash leaves an even number of backslashes. -/
theorem trailingBackslashes_pair {before : List WideChar} (d : WideChar)
    (heven : trailingBackslashes before % 2 = 0) :
    trailingBackslashes (before ++ [char '\\', d]) % 2 = 0 := by
  rw [← List.singleton_append, ← List.append_assoc]
  by_cases hd : d = char '\\'
  · rw [hd, trailingBackslashes_concat_backslash, trailingBackslashes_concat_backslash]
    omega
  · rw [trailingBackslashes_concat _ hd]

/-- An escape leaves no backslash. -/
theorem IsEscape.trailingBackslashes {text : List WideChar} (h : IsEscape text) (before : List WideChar) :
    trailingBackslashes (before ++ text) = 0 := by
  obtain ⟨tail, d, rfl, hnot⟩ := h.exists_tail
  rw [← List.cons_append, ← List.append_assoc]
  apply trailingBackslashes_concat
  rintro rfl
  simp at hnot

/-- **The scan finds the escapes that have an even number of backslashes before them.**  What the scan has
read ends in an even number of backslashes at every step, since it reads a pair or an escape at once. -/
theorem mem_escapesFrom_iff {place length : Nat} (start : Nat) (text before : List WideChar)
    (hstart : before.length = start) (heven : trailingBackslashes before % 2 = 0) :
    (place, length) ∈ escapesFrom start text ↔
      start ≤ place ∧ EscapeAt (before ++ text) place length := by
  fun_induction escapesFrom start text generalizing before with
  | case1 start =>
    subst hstart
    simp only [List.not_mem_nil, List.append_nil, false_iff, not_and]
    intro hle h
    exact absurd h.getElem? (by simp [List.getElem?_eq_none hle])
  | case2 start c rest width hescape ih =>
    subst hstart
    obtain ⟨hwidth, hwritten⟩ := escapeLength?_eq_some_iff.1 hescape
    have hsix := six_le_of_escapeLength? hescape
    have hdrop : rest.drop (width - 1) = (c :: rest).drop width := by
      rw [List.drop_cons (by omega)]
    rw [List.mem_cons, Prod.mk.injEq,
      ih (before ++ (c :: rest).take width) (by simp at hwidth ⊢; omega)
        (by rw [hwritten.trailingBackslashes]),
      hdrop, List.append_assoc, List.take_append_drop]
    -- At the place itself stands this escape; behind it the search goes on where the escape ends.
    constructor
    · rintro (⟨rfl, rfl⟩ | ⟨hplace, h⟩)
      · exact ⟨le_rfl, (escapeAt_length_iff heven).2 hescape⟩
      · exact ⟨by omega, h⟩
    · rintro ⟨hplace, h⟩
      rcases Nat.eq_or_lt_of_le hplace with rfl | hlt
      · rw [escapeAt_length_iff heven, hescape] at h
        exact .inl ⟨rfl, (Option.some.inj h).symm⟩
      · refine .inr ⟨?_, h⟩
        by_contra hinside
        exact not_escapeAt_inside hescape hlt (by omega) h
  | case3 start rest hescape ih =>
    subst hstart
    cases rest with
    | nil =>
      simp only [List.drop_nil, escapesFrom, List.not_mem_nil, false_iff, not_and]
      intro hle h
      obtain ⟨hlt, -⟩ := List.getElem?_eq_some_iff.1 h.getElem?
      obtain rfl : place = before.length := by simp at hlt; omega
      rw [escapeAt_length_iff heven, hescape] at h
      cases h
    | cons d rest =>
      rw [ih (before ++ [char '\\', d]) (by simp) (trailingBackslashes_pair d heven), List.append_assoc]
      apply escapeAt_pass (by omega)
      exact fun _ hlo hhi => not_escapeAt_pair heven hescape hlo hhi
  | case4 start c rest hescape hc ih =>
    subst hstart
    rw [ih (before ++ [c]) (by simp) (by rw [trailingBackslashes_concat _ hc]), List.append_assoc,
      List.singleton_append]
    apply escapeAt_pass (Nat.le_succ _)
    intro place hlo hhi h
    obtain rfl : place = before.length := by omega
    exact hc (by simpa using h.getElem?)

/-! ### The table of a source -/

/-- **The table of a source counts its characters up to the end and leaves out those inside escapes.**  If
the source has a backslash with a `u` behind it, it has a table, which ascends from zero to the length of
the source.  Two neighbours in the table are more than one apart just if the first is the place of an
escape that a scan from left to right finds, and then they are as far apart as the escape is long.  Those
are the escapes with an even number of backslashes before them, and those that the pattern finds. -/
theorem gaps_of_offsets? {source : List WideChar} (h : [char '\\', char 'u'] <:+: source) :
    (∃ offsets, offsets? source = some offsets ∧ offsets.Pairwise (· < ·) ∧ offsets.head? = some 0 ∧
      offsets.getLast? = some source.length ∧
      ∀ place length, Gap offsets place length ↔ (place, length) ∈ escapes source) ∧
    (∀ place length, (place, length) ∈ escapes source ↔ EscapeAt source place length) ∧
    pairsAndEscape.parts source = (escapes source).map fun part => (part.1, part.1 + part.2) := by
  refine ⟨⟨offsetsFrom 0 true 0 source, ?_, pairwise_offsetsFrom .., ?_, ?_, ?_⟩, ?_, ?_⟩
  · rw [offsets?_eq, if_pos (mentionsEscape_iff.2 h)]
  · exact head?_offsetsFrom 0 true source
  · simpa using getLast?_offsetsFrom 0 true 0 source
  · exact fun _ _ => gap_offsetsFrom_iff 0 source
  · intro place length
    unfold escapes
    simpa using mem_escapesFrom_iff 0 source [] rfl rfl
  · exact parts_pairsAndEscape source

/-- Three backslashes before a `u`, an escape right behind the one they end in, a pair of backslashes
before a `u`, and an escape with a character that is no digit. -/
def adjacentEscapes : List WideChar := WideString.toList "\\\\\\u0041\\uu0042\\\\u\\u00g0"

/-- Only the third and the fourth backslash begin escapes, of six and seven characters. -/
theorem gaps_of_offsets?_adjacentEscapes :
    ∃ offsets, offsets? adjacentEscapes = some offsets ∧ offsets.getLast? = some 24 ∧
      ∀ place length, Gap offsets place length ↔ (place, length) ∈ [(2, 6), (8, 7)] := by
  have hescapes : escapes adjacentEscapes = [(2, 6), (8, 7)] := by decide +kernel
  have hmentions : [char '\\', char 'u'] <:+: adjacentEscapes := mentionsEscape_iff.1 (by decide)
  obtain ⟨⟨offsets, htable, -, -, hlast, hgaps⟩, -⟩ := gaps_of_offsets? hmentions
  exact ⟨offsets, htable, hlast, fun place length => by rw [hgaps, hescapes]⟩

end SourceDoc.Escape
