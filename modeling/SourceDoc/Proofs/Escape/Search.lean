import SourceDoc.Proofs.Escape.Scan
import SourceDoc.Proofs.Text.Patterns

/-!
# What the search for escapes finds

The pattern of an escape looks back for a backslash, takes as many pairs of backslashes as it can and
may give some of them back.  All of this comes to the same as a scan from left to right: where no
backslash stands before, the pattern matches just if the backslashes that follow are odd in number and
the last of them begins an escape (`end?_pairsAndEscape`).  So the search finds the escapes that the scan
meets (`parts_pairsAndEscape`), and the table of offsets counts the characters that the scan counts
(`offsets?_eq`).
-/

namespace SourceDoc.Escape

open SourceDoc.Text
open WideChar (char)

/-! ### The pattern of an escape -/

/-- As many of the next code points are of a kind as the first ones of that number. -/
theorem le_run_iff {kind : WideChar → Bool} {n : Nat} {cursor : Cursor} :
    n ≤ cursor.run kind ↔
      (cursor.rest.take n).length = n ∧ (cursor.rest.take n).all kind = true := by
  unfold Cursor.run
  generalize cursor.rest = text
  induction n generalizing text with
  | zero => simp
  | succ n ih =>
    cases text with
    | nil => simp
    | cons c rest =>
      cases hc : kind c with
      | false => simp [hc]
      | true => simp [hc, ih]

/-- What is left begins with another code point. -/
theorem run_eq_zero {kind : WideChar → Bool} {cursor : Cursor} (h : cursor.rest.head?.any kind = false) :
    cursor.run kind = 0 := by
  cases hrest : cursor.rest with
  | nil => simp [Cursor.run, hrest]
  | cons c rest =>
    rw [hrest] at h
    simp only [List.head?_cons, Option.any_some] at h
    simp [Cursor.run, hrest, h]

theorem run_replicate {c : WideChar} {n : Nat} {tail : List WideChar} {cursor : Cursor}
    (hrest : cursor.rest = List.replicate n c ++ tail) (htail : tail.head? ≠ some c) :
    cursor.run (· == c) = n := by
  have hnone : tail.takeWhile (· == c) = [] := by
    cases tail with
    | nil => rfl
    | cons d tail =>
      have hd : d ≠ c := by simpa using htail
      simp [hd]
  rw [Cursor.run, hrest, List.takeWhile_append_of_pos (by simp), hnone]
  simp

/-- Of the `u`s none can be given back, since a `u` is no digit. -/
theorem ends_escapePattern_us {n : Nat} {tail : List WideChar} {cursor : Cursor}
    (hrest : cursor.rest = char '\\' :: (List.replicate (n + 1) (char 'u') ++ tail))
    (htail : tail.head? ≠ some (char 'u')) :
    escapePattern.ends cursor =
      if (tail.take 4).length = 4 ∧ (tail.take 4).all isHexDigit then [cursor.past (n + 6)] else [] := by
  have hbackslash : 1 ≤ cursor.run (· == char '\\') := by simp [Cursor.run, hrest]
  have hfirst : (cursor.past 1).run (· == char 'u') = n + 1 := by
    apply run_replicate _ htail
    simp [Cursor.rest_past, hrest]
  have hothers : (cursor.past 2).run (· == char 'u') = n := by
    rw [← Cursor.past_past cursor 1 1, Cursor.run_past (by omega), hfirst, Nat.add_sub_cancel]
  have hsteps : escapePattern.ends cursor =
      (((Pattern.one (· == char '\\')).ends cursor).flatMap fun cursor =>
        ((Pattern.one (· == char 'u')).ends cursor).flatMap fun cursor =>
          ((Pattern.many (.one (· == char 'u'))).ends cursor).flatMap
            (Pattern.row (List.replicate 4 (.one isHexDigit))).ends) := rfl
  have hmany := Pattern.ends_many Nat.one_pos (Pattern.ends_one (· == char 'u')) (cursor.past 2)
  rw [hsteps, Pattern.ends_one, if_pos hbackslash, List.flatMap_singleton, Pattern.ends_one,
    if_pos (by omega), List.flatMap_singleton, Cursor.past_past, hmany, hothers, Nat.div_one,
    List.range_succ, List.reverse_append, List.map_append, List.flatMap_append]
  -- All `u`s are taken first; with fewer of them a `u` would have to be a digit.
  have hfewer : ((List.range n).reverse.map fun i => (cursor.past 2).past (1 * i)).flatMap
      (Pattern.row (List.replicate 4 (.one isHexDigit))).ends = [] := by
    rw [List.flatMap_eq_nil_iff]
    intro place hplace
    obtain ⟨i, hi, rfl⟩ := List.mem_map.1 hplace
    rw [List.mem_reverse, List.mem_range] at hi
    have hzero : ((cursor.past 2).past (1 * i)).run isHexDigit = 0 := by
      apply run_eq_zero
      rw [Cursor.rest_past, Cursor.rest_past, hrest]
      obtain ⟨m, rfl⟩ : ∃ m, n = i + m + 1 := ⟨n - i - 1, by omega⟩
      have hdrop : ((char '\\' :: (List.replicate (i + m + 1 + 1) (char 'u') ++ tail)).drop 2).drop
          (1 * i) = List.replicate (m + 1) (char 'u') ++ tail := by
        rw [List.drop_succ_cons, List.drop_drop, Nat.one_mul,
          List.drop_append_of_le_length (by simp; omega), List.drop_replicate]
        congr 2
        omega
      rw [hdrop, List.replicate_succ]
      rfl
    rw [Pattern.ends_row_replicate, hzero]
    rfl
  have hlast : (cursor.past (n + 2)).rest = tail := by
    rw [Cursor.rest_past, hrest, List.drop_succ_cons, List.drop_left' (by simp)]
  rw [hfewer, List.append_nil, List.reverse_singleton, List.map_singleton, List.flatMap_singleton,
    Nat.one_mul, Cursor.past_past, Nat.add_comm 2 n, Pattern.ends_row_replicate, Cursor.past_past]
  exact if_congr (le_run_iff.trans (by rw [hlast])) rfl rfl

/-- **The pattern of an escape matches an escape**, in one way only. -/
theorem ends_escapePattern (cursor : Cursor) :
    escapePattern.ends cursor = (escapeLength? cursor.rest).toList.map cursor.past := by
  have hnone (h : cursor.run (· == char '\\') = 0) : escapePattern.ends cursor = [] := by
    have hsteps : escapePattern.ends cursor =
        ((Pattern.one (· == char '\\')).ends cursor).flatMap (Pattern.row
          ([.one (· == char 'u'), .many (.one (· == char 'u'))] ++
            List.replicate 4 (.one isHexDigit))).ends := rfl
    rw [hsteps, Pattern.ends_one, h]
    rfl
  have hlone (h : (cursor.past 1).run (· == char 'u') = 0) : escapePattern.ends cursor = [] := by
    have hsteps : escapePattern.ends cursor =
        (((Pattern.one (· == char '\\')).ends cursor).flatMap fun cursor =>
          ((Pattern.one (· == char 'u')).ends cursor).flatMap (Pattern.row
            ([.many (.one (· == char 'u'))] ++ List.replicate 4 (.one isHexDigit))).ends) := rfl
    rw [hsteps, Pattern.ends_one]
    split
    · rw [List.flatMap_singleton, Pattern.ends_one, h]
      rfl
    · rfl
  have hus (n : Nat) (tail : List WideChar)
      (hrest : cursor.rest = char '\\' :: (List.replicate (n + 1) (char 'u') ++ tail))
      (htail : tail.head? ≠ some (char 'u')) :
      escapePattern.ends cursor = (escapeLength? cursor.rest).toList.map cursor.past := by
    rw [ends_escapePattern_us hrest htail, hrest, escapeLength?_escape n tail htail]
    split <;> rfl
  generalize htext : cursor.rest = text
  cases text using scan_induction with
  | nil =>
    rw [hnone (by simp [Cursor.run, htext])]
    rfl
  | plain c rest hc =>
    rw [hnone (by simp [Cursor.run, htext, hc]), escapeLength?_plain rest hc]
    rfl
  | lone =>
    rw [hlone (by simp [Cursor.run, Cursor.rest_past, htext])]
    rfl
  | pair c rest hc =>
    rw [hlone (by simp [Cursor.run, Cursor.rest_past, htext, hc]), escapeLength?_pair rest hc]
    rfl
  | cut n => simpa [htext] using hus n [] (by simpa using htext) (by simp)
  | escape n c rest hc => simpa [htext] using hus n (c :: rest) htext (by simpa using hc)

/-! ### Pairs of backslashes -/

theorem escapeLength?_backslashes {n : Nat} {tail : List WideChar} (hn : n ≠ 1)
    (htail : tail.head? ≠ some (char '\\')) :
    escapeLength? (List.replicate n (char '\\') ++ tail) = none := by
  match n with
  | 0 =>
    cases tail with
    | nil => rfl
    | cons c tail => exact escapeLength?_plain tail (by simpa using htail)
  | 1 => contradiction
  | n + 2 => exact escapeLength?_pair _ (by decide)

/-- The match of an escape behind pairs of backslashes. -/
def found (cursor : Cursor) (pairs length : Nat) : Cursor :=
  { cursor.past (pairs + length) with
    noted := some (cursor.place + pairs, cursor.place + pairs + length) }

theorem ends_noted_escapePattern {cursor : Cursor} {n : Nat} (hn : n ≤ cursor.rest.length) :
    (Pattern.noted escapePattern).ends (cursor.past n) =
      (escapeLength? (cursor.rest.drop n)).toList.map (found cursor n) := by
  rw [Pattern.ends, ends_escapePattern, Cursor.rest_past]
  cases hlength : escapeLength? (cursor.rest.drop n) with
  | none => rfl
  | some length =>
    have hle := (escapeLength?_eq_some_iff.1 hlength).1
    rw [List.length_drop] at hle
    simp [found, Cursor.past_past, Cursor.place_past hn,
      Cursor.place_past (show n + length ≤ cursor.rest.length by omega), Nat.add_assoc]

/-- **The pattern with its pairs matches where the backslashes are odd in number and the last begins an
escape.**  All pairs are taken then, and to give some back never helps: two backslashes at least would
stand before the `u`. -/
theorem ends_pairsAndEscape {n : Nat} {tail : List WideChar} {cursor : Cursor}
    (hbehind : cursor.behind ≠ some (char '\\'))
    (hrest : cursor.rest = List.replicate n (char '\\') ++ tail)
    (htail : tail.head? ≠ some (char '\\')) :
    pairsAndEscape.ends cursor =
      if n % 2 = 1 then (escapeLength? (char '\\' :: tail)).toList.map (found cursor (n - 1)) else [] := by
  have hsteps : pairsAndEscape.ends cursor =
      ((Pattern.notBehind (· == char '\\')).ends cursor).flatMap fun cursor =>
        ((Pattern.many (.row (List.replicate 2 backslash))).ends cursor).flatMap fun cursor =>
          ((Pattern.noted escapePattern).ends cursor).flatMap fun cursor => [cursor] := rfl
  have hfresh : (Pattern.notBehind (· == char '\\')).ends cursor = [cursor] := by
    have hany : cursor.behind.any (· == char '\\') = false := by
      cases hb : cursor.behind with
      | none => rfl
      | some c => simpa [hb] using hbehind
    rw [Pattern.ends, hany]
    rfl
  have hmany := Pattern.ends_many Nat.two_pos
    (Pattern.ends_row_replicate (· == char '\\') 2) cursor
  have hlen : n ≤ cursor.rest.length := by simp [hrest]
  have hdrop {i : Nat} (hi : i ≤ n) :
      cursor.rest.drop i = List.replicate (n - i) (char '\\') ++ tail := by
    rw [hrest, List.drop_append_of_le_length (by simpa using hi), List.drop_replicate]
  have hnone {i : Nat} (hi : i ≤ n) (hne : i + 1 ≠ n) :
      (Pattern.noted escapePattern).ends (cursor.past i) = [] := by
    rw [ends_noted_escapePattern (by omega), hdrop hi, escapeLength?_backslashes (by omega) htail]
    rfl
  rw [run_replicate hrest htail] at hmany
  rw [hsteps, hfresh, List.flatMap_singleton, backslash, hmany, List.range_succ, List.reverse_append,
    List.map_append, List.flatMap_append]
  have hfewer : ((List.range (n / 2)).reverse.map fun i => cursor.past (2 * i)).flatMap
      (fun cursor => ((Pattern.noted escapePattern).ends cursor).flatMap fun cursor => [cursor]) = [] := by
    rw [List.flatMap_eq_nil_iff]
    intro place hplace
    obtain ⟨i, hi, rfl⟩ := List.mem_map.1 hplace
    rw [List.mem_reverse, List.mem_range] at hi
    rw [hnone (by omega) (by omega)]
    rfl
  rw [hfewer, List.append_nil, List.reverse_singleton, List.map_singleton, List.flatMap_singleton,
    List.flatMap_singleton']
  split
  · rename_i hodd
    rw [ends_noted_escapePattern (by omega), hdrop (by omega), show n - 2 * (n / 2) = 1 by omega,
      show 2 * (n / 2) = n - 1 by omega]
    rfl
  · exact hnone (by omega) (by omega)

theorem ends_pairsAndEscape_behind {cursor : Cursor} (h : cursor.behind = some (char '\\')) :
    pairsAndEscape.ends cursor = [] := by
  have hsteps : pairsAndEscape.ends cursor =
      ((Pattern.notBehind (· == char '\\')).ends cursor).flatMap (Pattern.row
        [.many (.row [backslash, backslash]), .noted escapePattern]).ends := rfl
  rw [hsteps, Pattern.ends, h]
  rfl

/-- The last of some backslashes, which may begin an escape. -/
theorem replicate_append_backslash {n : Nat} (hn : 0 < n) (tail : List WideChar) :
    List.replicate n (char '\\') ++ tail =
      List.replicate (n - 1) (char '\\') ++ char '\\' :: tail := by
  obtain ⟨m, rfl⟩ : ∃ m, n = m + 1 := ⟨n - 1, by omega⟩
  rw [List.replicate_succ', Nat.add_sub_cancel]
  simp

/-- The last code point of an escape is no backslash. -/
theorem exists_last_of_escapeLength? {text : List WideChar} {length : Nat}
    (h : escapeLength? text = some length) :
    ∃ d, d ≠ char '\\' ∧ text[length - 1]? = some d := by
  obtain ⟨hle, hwritten⟩ := escapeLength?_eq_some_iff.1 h
  obtain ⟨tail, d, htake, hnot⟩ := hwritten.exists_tail
  refine ⟨d, ?_, ?_⟩
  · rintro rfl
    simp at hnot
  · have hlength : length = tail.length + 2 := by
      have := congrArg List.length htake
      simp at this
      omega
    rw [← List.getElem?_take_of_lt (show length - 1 < length by omega), htake, hlength]
    simp

section
variable {n length : Nat} {tail : List WideChar} {cursor : Cursor} (hn : 0 < n)
  (hrest : cursor.rest = List.replicate n (char '\\') ++ tail)
  (hlength : escapeLength? (char '\\' :: tail) = some length)
include hn hrest hlength

theorem pairs_add_length_le : n - 1 + length ≤ cursor.rest.length := by
  have hle := (escapeLength?_eq_some_iff.1 hlength).1
  rw [hrest, replicate_append_backslash hn, List.length_append, List.length_replicate]
  omega

theorem place_found :
    (found cursor (n - 1) length).place = cursor.place + (n - 1) + length := by
  show (cursor.past (n - 1 + length)).place = _
  rw [Cursor.place_past (pairs_add_length_le hn hrest hlength), Nat.add_assoc]

theorem rest_found : (found cursor (n - 1) length).rest = tail.drop (length - 1) := by
  have hsix := six_le_of_escapeLength? hlength
  show (cursor.past (n - 1 + length)).rest = _
  rw [Cursor.rest_past, hrest, replicate_append_backslash hn, ← List.drop_drop,
    List.drop_left' (by simp), List.drop_cons (by omega)]

/-- Behind a match the pattern sees no backslash. -/
theorem behind_found : (found cursor (n - 1) length).behind ≠ some (char '\\') := by
  have hsix := six_le_of_escapeLength? hlength
  have hle := pairs_add_length_le hn hrest hlength
  obtain ⟨d, hd, hlast⟩ := exists_last_of_escapeLength? hlength
  obtain ⟨m, hm⟩ : ∃ m, n - 1 + length = m + 1 := ⟨n - 1 + length - 1, by omega⟩
  show (cursor.past (n - 1 + length)).behind ≠ _
  rw [hm, Cursor.behind_past (by omega), hrest, replicate_append_backslash hn,
    List.getElem?_append_right (by simp; omega), List.length_replicate,
    show m - (n - 1) = length - 1 by omega, hlast]
  simpa using hd

end

theorem end?_pairsAndEscape {n : Nat} {tail : List WideChar} {cursor : Cursor}
    (hbehind : cursor.behind ≠ some (char '\\'))
    (hrest : cursor.rest = List.replicate n (char '\\') ++ tail)
    (htail : tail.head? ≠ some (char '\\')) :
    pairsAndEscape.end? cursor =
      if n % 2 = 1 then (escapeLength? (char '\\' :: tail)).map (found cursor (n - 1)) else none := by
  rw [Pattern.end?, ends_pairsAndEscape hbehind hrest htail]
  split
  · rename_i hodd
    cases hlength : escapeLength? (char '\\' :: tail) with
    | none => rfl
    | some length =>
      have hsix := six_le_of_escapeLength? hlength
      have hplace : cursor.place < (found cursor (n - 1) length).place := by
        rw [place_found (by omega) hrest hlength]
        omega
      simp [hplace]
  · rfl

/-! ### The search -/

/-- Where no match begins, the search goes on. -/
theorem matchesFrom_past {pattern : Pattern} {n : Nat} {left : List WideChar} {cursor : Cursor}
    (hn : n ≤ left.length) (hnone : ∀ i < n, pattern.end? (cursor.past i) = none) :
    pattern.matchesFrom left cursor = pattern.matchesFrom (left.drop n) (cursor.past n) := by
  induction n generalizing left cursor with
  | zero => rfl
  | succ n ih =>
    cases left with
    | nil => simp at hn
    | cons c left =>
      have hfirst : pattern.end? cursor = none := hnone 0 (by omega)
      rw [Pattern.matchesFrom, hfirst, List.drop_succ_cons]
      exact ih (by simpa using hn) fun i hi => hnone (i + 1) (by omega)

theorem matchesFrom_of_rest_nil {left : List WideChar} {cursor : Cursor} (h : cursor.rest = []) :
    pairsAndEscape.matchesFrom left cursor = [] := by
  have hnone : pairsAndEscape.end? cursor = none := by
    by_cases hbehind : cursor.behind = some (char '\\')
    · rw [Pattern.end?, ends_pairsAndEscape_behind hbehind]
      rfl
    · have hrest : cursor.rest = List.replicate 0 (char '\\') ++ [] := h
      rw [end?_pairsAndEscape hbehind hrest (by simp)]
      rfl
  have hnext : cursor.next = cursor := by simp [Cursor.next, h]
  induction left with
  | nil => rfl
  | cons c left ih => rw [Pattern.matchesFrom, hnone, hnext, ih]

/-- The scan takes pairs of backslashes at once. -/
theorem escapesFrom_pairs (place n : Nat) (text : List WideChar) :
    escapesFrom place (List.replicate (2 * n) (char '\\') ++ text) = escapesFrom (place + 2 * n) text := by
  induction n generalizing place with
  | zero => rfl
  | succ n ih =>
    have htext : List.replicate (2 * (n + 1)) (char '\\') ++ text =
        char '\\' :: char '\\' :: (List.replicate (2 * n) (char '\\') ++ text) := rfl
    rw [htext, escapesFrom, escapeLength?_pair _ (by decide)]
    show escapesFrom (place + 2) (List.replicate (2 * n) (char '\\') ++ text) = _
    rw [ih, Nat.add_assoc, Nat.add_comm 2, Nat.mul_succ]

/-- A scan that meets no escape behind a run of backslashes has passed the next character too. -/
theorem escapesFrom_backslashes {n place : Nat} {tail : List WideChar}
    (htail : tail.head? ≠ some (char '\\'))
    (hnone : n % 2 = 1 → escapeLength? (char '\\' :: tail) = none) :
    escapesFrom place (List.replicate n (char '\\') ++ tail) =
      escapesFrom (place + n + 1) (tail.drop 1) := by
  obtain ⟨m, hm | hm⟩ : ∃ m, n = 2 * m ∨ n = 2 * m + 1 := ⟨n / 2, by omega⟩
  · subst hm
    rw [escapesFrom_pairs]
    cases tail with
    | nil => simp [escapesFrom]
    | cons c tail =>
      have hc : c ≠ char '\\' := by simpa using htail
      rw [escapesFrom, escapeLength?_plain tail hc]
      simp [hc]
  · subst hm
    rw [replicate_append_backslash (by omega), Nat.add_sub_cancel, escapesFrom_pairs, escapesFrom,
      hnone (by omega)]
    simp [Nat.add_assoc]

theorem escapesFrom_escape {n place length : Nat} {tail : List WideChar} (hn : n % 2 = 1)
    (hlength : escapeLength? (char '\\' :: tail) = some length) :
    escapesFrom place (List.replicate n (char '\\') ++ tail) =
      (place + (n - 1), length) :: escapesFrom (place + (n - 1) + length) (tail.drop (length - 1)) := by
  obtain ⟨m, rfl⟩ : ∃ m, n = 2 * m + 1 := ⟨n / 2, by omega⟩
  rw [replicate_append_backslash (by omega), Nat.add_sub_cancel, escapesFrom_pairs, escapesFrom, hlength]

/-- Where a run of backslashes leads to no escape, no match begins at the run, within it or just behind it:
behind the first of them the pattern sees a backslash. -/
theorem end?_past_eq_none {n : Nat} {tail : List WideChar} {cursor : Cursor}
    (hbehind : cursor.behind ≠ some (char '\\'))
    (hrest : cursor.rest = List.replicate n (char '\\') ++ tail)
    (htail : tail.head? ≠ some (char '\\'))
    (hnone : n % 2 = 1 → escapeLength? (char '\\' :: tail) = none) {i : Nat} (hi : i ≤ n) :
    pairsAndEscape.end? (cursor.past i) = none := by
  cases i with
  | zero =>
    rw [Cursor.past, end?_pairsAndEscape hbehind hrest htail]
    split
    · rename_i hodd
      rw [hnone hodd]
      rfl
    · rfl
  | succ i =>
    have hlt : i < n := hi
    have hmore : i < cursor.rest.length := by
      simp [hrest]
      omega
    rw [Pattern.end?, ends_pairsAndEscape_behind]
    · rfl
    · rw [Cursor.behind_past hmore, hrest, List.getElem?_append_left (by simpa using hlt)]
      simp [hlt]

/-- **The search notes the escapes that the scan meets**, from a place on that has no backslash behind it.
Both pass a run of backslashes as a whole, with the escape or the character behind it. -/
theorem filterMap_matchesFrom (left : List WideChar) (cursor : Cursor)
    (hbehind : cursor.behind ≠ some (char '\\')) (hleft : cursor.rest.length ≤ left.length) :
    (pairsAndEscape.matchesFrom left cursor).filterMap (·.noted) =
      (escapesFrom cursor.place cursor.rest).map fun part => (part.1, part.1 + part.2) := by
  induction hlen : left.length using Nat.strongRecOn generalizing left cursor with
  | ind len ih =>
  subst hlen
  obtain ⟨n, tail, hrest, htail⟩ := exists_replicate_append (char '\\') cursor.rest
  by_cases hescape : n % 2 = 1 ∧ ∃ length, escapeLength? (char '\\' :: tail) = some length
  · obtain ⟨hodd, length, hlength⟩ := hescape
    have hn : 0 < n := by omega
    have hle := pairs_add_length_le hn hrest hlength
    have hsix := six_le_of_escapeLength? hlength
    cases left with
    | nil =>
      simp only [List.length_nil] at hleft
      omega
    | cons c left =>
      have hafter := rest_found hn hrest hlength
      have hih := ih left.length (by simp) left (found cursor (n - 1) length)
        (behind_found hn hrest hlength)
        (by rw [hafter, List.length_drop]; simp [hrest] at hleft; omega) rfl
      rw [place_found hn hrest hlength, hafter] at hih
      have hnoted : (found cursor (n - 1) length).noted =
          some (cursor.place + (n - 1), cursor.place + (n - 1) + length) := rfl
      rw [Pattern.matchesFrom, end?_pairsAndEscape hbehind hrest htail, if_pos hodd, hlength]
      show List.filterMap _ (found cursor (n - 1) length :: _) = _
      rw [List.filterMap_cons_some (f := Cursor.noted) hnoted, hih, hrest,
        escapesFrom_escape hodd hlength]
      rfl
  · have hnone : n % 2 = 1 → escapeLength? (char '\\' :: tail) = none := by
      intro hodd
      by_contra hsome
      exact hescape ⟨hodd, Option.ne_none_iff_exists'.1 hsome⟩
    have hpass : ∀ i ≤ n, pairsAndEscape.end? (cursor.past i) = none := by
      intro i hi
      exact end?_past_eq_none hbehind hrest htail hnone hi
    rw [hrest, escapesFrom_backslashes htail hnone]
    cases tail with
    | nil =>
      rw [matchesFrom_past (n := n) (by simpa [hrest] using hleft) fun i hi => hpass i (by omega),
        matchesFrom_of_rest_nil (by rw [Cursor.rest_past, hrest]; simp)]
      simp [escapesFrom]
    | cons c tail =>
      have hc : c ≠ char '\\' := by simpa using htail
      have hlength : n + 1 + tail.length = cursor.rest.length := by
        simp [hrest]
        omega
      have hafter : (cursor.past (n + 1)).rest = tail := by
        rw [Cursor.rest_past, hrest, ← List.drop_drop, List.drop_left' (by simp)]
        rfl
      have hfresh : (cursor.past (n + 1)).behind ≠ some (char '\\') := by
        rw [Cursor.behind_past (by omega), hrest, List.getElem?_append_right (by simp)]
        simpa using hc
      rw [matchesFrom_past (n := n + 1) (by omega) fun i hi => hpass i (by omega),
        ih _ (by rw [List.length_drop]; omega) _ _ hfresh (by rw [hafter, List.length_drop]; omega) rfl,
        hafter, Cursor.place_past (by omega)]
      rfl

/-- The search of a source notes its escapes. -/
theorem parts_pairsAndEscape (source : List WideChar) :
    pairsAndEscape.parts source = (escapes source).map fun part => (part.1, part.1 + part.2) :=
  filterMap_matchesFrom source (.start source) (by simp [Cursor.start]) (Nat.le_refl _)

/-! ### The table -/

/-- The scan goes forward. -/
theorem le_of_mem_escapesFrom {place : Nat} {text : List WideChar} {part : Nat × Nat}
    (h : part ∈ escapesFrom place text) : place ≤ part.1 := by
  fun_induction escapesFrom place text with
  | case1 place => cases h
  | case2 place c rest length hlength ih =>
    rcases List.mem_cons.1 h with rfl | hmem
    · exact Nat.le_refl _
    · have := ih hmem
      omega
  | case3 place rest hlength ih =>
    have := ih h
    omega
  | case4 place c rest hlength hc ih =>
    have := ih h
    omega

/-- A place before all parts is counted. -/
theorem placesFrom_cons {stop last : Nat} {parts : List (Nat × Nat)} (hstop : last ≤ stop)
    (hparts : ∀ part ∈ parts, last + 1 ≤ part.1) :
    placesFrom stop last parts = last :: placesFrom stop (last + 1) parts := by
  cases parts with
  | nil =>
    rw [placesFrom, placesFrom, show stop + 1 - last = stop + 1 - (last + 1) + 1 by omega,
      List.range'_succ]
  | cons part parts =>
    obtain ⟨first, next⟩ := part
    have hfirst : last + 1 ≤ first := hparts _ List.mem_cons_self
    rw [placesFrom, placesFrom, show first - last = first - (last + 1) + 1 by omega, List.range'_succ,
      List.cons_append]

/-- **The loop over the escapes counts what the scan counts.** -/
theorem placesFrom_escapesFrom (place : Nat) (text : List WideChar) :
    placesFrom (place + text.length) place
        ((escapesFrom place text).map fun part => (part.1, part.1 + part.2)) =
      offsetsFrom place true 0 text := by
  have hlater {first place : Nat} {text : List WideChar} (hplace : first ≤ place) :
      ∀ part ∈ (escapesFrom place text).map fun part => (part.1, part.1 + part.2), first ≤ part.1 := by
    intro part hpart
    obtain ⟨escape, hescape, rfl⟩ := List.mem_map.1 hpart
    have hle := le_of_mem_escapesFrom hescape
    exact Nat.le_trans hplace hle
  fun_induction escapesFrom place text with
  | case1 place => simp [placesFrom, offsetsFrom]
  | case2 place c rest length hlength ih =>
    have hle := (escapeLength?_eq_some_iff.1 hlength).1
    have hsix := six_le_of_escapeLength? hlength
    rw [List.length_cons] at hle
    rw [List.length_drop, show place + length + (rest.length - (length - 1)) = place + (rest.length + 1)
      by omega] at ih
    rw [offsetsFrom_of_escape place hlength, ← ih, List.map_cons, placesFrom, Nat.sub_self]
    rfl
  | case3 place rest hlength ih =>
    rw [offsetsFrom_of_backslash place hlength, placesFrom_cons (by omega) (hlater (by omega))]
    cases rest with
    | nil => simp [escapesFrom, placesFrom, offsetsFrom]
    | cons d rest =>
      simp only [List.drop_one, List.tail_cons, List.length_cons] at ih ⊢
      rw [offsetsFrom_odd, placesFrom_cons (by omega) (hlater (by omega)), ← ih,
        show place + (rest.length + 1 + 1) = place + 2 + rest.length by omega]
  | case4 place c rest hlength hc ih =>
    rw [offsetsFrom_plain place rest hc, placesFrom_cons (by omega) (hlater (by omega)), ← ih,
      List.length_cons, show place + (rest.length + 1) = place + 1 + rest.length by omega]

/-- The table of a source in which an escape can occur is that of the scan. -/
theorem offsets?_eq (source : List WideChar) :
    offsets? source = if mentionsEscape source then some (offsetsFrom 0 true 0 source) else none := by
  have htable := placesFrom_escapesFrom 0 source
  rw [Nat.zero_add] at htable
  rw [offsets?, parts_pairsAndEscape, escapes, htable]

end SourceDoc.Escape
