import Mathlib.Data.List.Basic
import Mathlib.Data.List.TakeWhile
import SourceDoc.Escape.Offsets

/-!
# How a source is read, escape by escape

The decoder walks over a source character by character and keeps a mode; the table of offsets is made
from what a search for escapes finds.  Both can be told from a scan from left to right, which takes a
backslash together with the next character unless it begins an escape: `escapesFrom` gives the escapes that
it meets, and `offsetsFrom` the characters that it counts.

`scan_induction` splits a source into what is read at once, and the scan gets one equation for each way in
which the rest of a source can begin (`offsetsFrom_plain` to `offsetsFrom_unwritten`).
-/

namespace SourceDoc.Escape

open WideChar (char)

/-! ### The scan -/

/-- The length of the escape that a text begins with. -/
def escapeLength? : List WideChar → Option Nat
  | .char '\\' :: rest =>
    let us := rest.takeWhile (· == char 'u')
    let digits := ((rest.drop us.length).take 4)
    if us.length ≥ 1 && digits.length == 4 && digits.all isHexDigit then some (us.length + 5)
    else none
  | _ => none

/-- The escapes in the rest of a source that begins at `place`, each with its place and its length.  A
backslash that begins no escape takes the next character along. -/
def escapesFrom (place : Nat) : List WideChar → List (Nat × Nat)
  | [] => []
  | c :: rest =>
    match escapeLength? (c :: rest) with
    | some length => (place, length) :: escapesFrom (place + length) (rest.drop (length - 1))
    | none =>
      if c = char '\\' then escapesFrom (place + 2) (rest.drop 1) else escapesFrom (place + 1) rest
  termination_by text => text.length
  decreasing_by
    all_goals simp only [List.length_drop, List.length_cons]
    all_goals omega

/-- The escapes of a source. -/
def escapes (source : List WideChar) : List (Nat × Nat) := escapesFrom 0 source

/-- The offsets of the decoded characters in the rest of a source that begins at `place`.  `even`
tells whether an even number of backslashes stands just before, and `skip` how many characters of
an escape are still to come. -/
def offsetsFrom (place : Nat) (even : Bool) (skip : Nat) : List WideChar → List Nat
  | [] => [place]
  | c :: rest =>
    if skip = 0 then
      match if even then escapeLength? (c :: rest) else none with
      | some length => place :: offsetsFrom (place + 1) true (length - 1) rest
      | none => place :: offsetsFrom (place + 1) (!(c = char '\\' && even)) 0 rest
    else offsetsFrom (place + 1) true (skip - 1) rest

/-! ### The ways a source begins -/

/-- A text begins with a run of one code point, which may be empty. -/
theorem exists_replicate_append (c : WideChar) (text : List WideChar) :
    ∃ n tail, text = List.replicate n c ++ tail ∧ tail.head? ≠ some c := by
  refine ⟨(text.takeWhile (· == c)).length, text.dropWhile (· == c), ?_, ?_⟩
  · have hall : text.takeWhile (· == c) = List.replicate (text.takeWhile (· == c)).length c := by
      rw [List.eq_replicate_iff]
      refine ⟨rfl, fun b hb => ?_⟩
      simpa using List.mem_takeWhile_imp hb
    rw [← hall, List.takeWhile_append_dropWhile]
  · intro h
    have := List.head?_dropWhile_not (· == c) text
    rw [h] at this
    simp at this

/-- **Induction along the reading of a source.**  The rest of a source is empty, begins with a
character that opens nothing, is a lone backslash, begins with a backslash and a character that is no
`u`, ends behind the `u`s of an escape, or begins with an escape that has something behind its
`u`s. -/
theorem scan_induction {motive : List WideChar → Prop}
    (nil : motive [])
    (plain : ∀ c rest, c ≠ char '\\' → motive rest → motive (c :: rest))
    (lone : motive [char '\\'])
    (pair : ∀ c rest, c ≠ char 'u' → motive rest → motive (char '\\' :: c :: rest))
    (cut : ∀ n, motive (char '\\' :: List.replicate (n + 1) (char 'u')))
    (escape : ∀ n c rest, c ≠ char 'u' → motive ((c :: rest).drop 4) →
      motive (char '\\' :: (List.replicate (n + 1) (char 'u') ++ c :: rest)))
    (text : List WideChar) : motive text := by
  induction hlen : text.length using Nat.strongRecOn generalizing text with
  | ind len ih =>
  match text with
  | [] => exact nil
  | c :: rest =>
    by_cases hc : c = char '\\'
    · subst hc
      match rest with
      | [] => exact lone
      | d :: rest =>
        by_cases hd : d = char 'u'
        · subst hd
          -- The `u`s are split off first; what is left decides between the last two ways.
          obtain ⟨n, tail, hrest, htail⟩ := exists_replicate_append (char 'u') rest
          subst hrest
          match tail with
          | [] => simpa [List.replicate_succ] using cut n
          | e :: tail =>
            have he : e ≠ char 'u' := by simpa using htail
            have hih := ih ((e :: tail).drop 4).length (by
              simp only [List.length_cons, List.length_append, List.length_drop] at hlen ⊢
              omega) _ rfl
            simpa [List.replicate_succ] using escape n e tail he hih
        · exact pair d rest hd (ih rest.length (by simp at hlen; omega) rest rfl)
    · exact plain c rest hc (ih rest.length (by simp at hlen; omega) rest rfl)

/-! ### The length of an escape -/

/-- A text is an escape: a backslash, one or more `u` and four hexadecimal digits. -/
def IsEscape (text : List WideChar) : Prop :=
  ∃ n digits, text = char '\\' :: (List.replicate (n + 1) (char 'u') ++ digits) ∧ digits.length = 4 ∧
    digits.all isHexDigit = true

theorem escapeLength?_plain {c : WideChar} (rest : List WideChar) (hc : c ≠ char '\\') :
    escapeLength? (c :: rest) = none := by
  unfold escapeLength?
  split
  · rename_i h
    exact absurd (List.cons.inj h).1 hc
  · rfl

theorem escapeLength?_pair {c : WideChar} (rest : List WideChar) (hc : c ≠ char 'u') :
    escapeLength? (char '\\' :: c :: rest) = none := by
  simp [escapeLength?, hc]

/-- An escape is counted as one exactly if four hexadecimal digits stand behind its `u`s. -/
theorem escapeLength?_escape (n : Nat) (tail : List WideChar) (htail : tail.head? ≠ some (char 'u')) :
    escapeLength? (char '\\' :: (List.replicate (n + 1) (char 'u') ++ tail)) =
      if (tail.take 4).length = 4 ∧ (tail.take 4).all isHexDigit then some (n + 6) else none := by
  have hus : (List.replicate (n + 1) (char 'u') ++ tail).takeWhile (· == char 'u') =
      List.replicate (n + 1) (char 'u') := by
    have hnone : tail.takeWhile (· == char 'u') = [] := by
      cases tail with
      | nil => rfl
      | cons c tail =>
        have hc : c ≠ char 'u' := by simpa using htail
        simp [hc]
    rw [List.takeWhile_append_of_pos (by simp), hnone, List.append_nil]
  simp only [escapeLength?, hus, List.length_replicate, List.drop_left',
    Bool.and_eq_true, decide_eq_true_eq, beq_iff_eq]
  simp

theorem head?_digits_append {digits rest : List WideChar} (hlen : digits.length = 4)
    (hhex : digits.all isHexDigit) : (digits ++ rest).head? ≠ some (char 'u') := by
  cases digits with
  | nil => cases hlen
  | cons c digits =>
    intro h
    have hc : c = char 'u' := by simpa using h
    rw [hc, List.all_cons] at hhex
    cases hhex

/-- **The length of an escape.**  A text begins with an escape of some length if as many of its characters
are one. -/
theorem escapeLength?_eq_some_iff {text : List WideChar} {length : Nat} :
    escapeLength? text = some length ↔ length ≤ text.length ∧ IsEscape (text.take length) := by
  constructor
  · intro h
    -- A text that does not go on behind its `u`s, or has none, begins with no escape.
    induction text using scan_induction with
    | nil => cases h
    | plain c rest hc => simp [escapeLength?_plain rest hc] at h
    | lone => cases h
    | pair c rest hc => simp [escapeLength?_pair rest hc] at h
    | cut n =>
      rw [← List.append_nil (List.replicate (n + 1) (char 'u')), escapeLength?_escape n [] (by simp)] at h
      simp at h
    | escape n c rest hc =>
      rw [escapeLength?_escape n _ (by simpa using hc)] at h
      split at h
      · rename_i hdigits
        obtain ⟨hlen, hhex⟩ := hdigits
        obtain rfl : n + 6 = length := Option.some.inj h
        have htake : (char '\\' :: (List.replicate (n + 1) (char 'u') ++ c :: rest)).take (n + 6) =
            char '\\' :: (List.replicate (n + 1) (char 'u') ++ (c :: rest).take 4) := by
          simp [List.take_append, show n + 5 - (n + 1) = 4 by omega]
        refine ⟨?_, n, _, htake, hlen, hhex⟩
        simp only [List.length_take] at hlen
        simp only [List.length_cons, List.length_append, List.length_replicate] at hlen ⊢
        omega
      · cases h
  · rintro ⟨hle, n, digits, htext, hlen, hhex⟩
    have hlength : length = n + 6 := by
      have := congrArg List.length htext
      simp [hlen] at this
      omega
    rw [← List.take_append_drop length text, htext, List.cons_append, List.append_assoc,
      escapeLength?_escape n _ (head?_digits_append hlen hhex), List.take_left' hlen,
      if_pos ⟨hlen, hhex⟩, hlength]

/-- An escape has at least six characters. -/
theorem six_le_of_escapeLength? {text : List WideChar} {length : Nat}
    (h : escapeLength? text = some length) : 6 ≤ length := by
  obtain ⟨hle, n, digits, htext, hlen, -⟩ := escapeLength?_eq_some_iff.1 h
  have := congrArg List.length htext
  simp [hlen] at this
  omega

/-- Behind its backslash an escape goes on, without another backslash. -/
theorem IsEscape.exists_tail {text : List WideChar} (h : IsEscape text) :
    ∃ tail d, text = char '\\' :: (tail ++ [d]) ∧ char '\\' ∉ tail ++ [d] := by
  obtain ⟨n, digits, rfl, hlen, hhex⟩ := h
  have hnot : char '\\' ∉ List.replicate (n + 1) (char 'u') ++ digits := by
    rw [List.mem_append, not_or]
    constructor
    · simp
    · exact fun hmem => absurd (List.all_eq_true.1 hhex _ hmem) (by decide)
  rcases List.eq_nil_or_concat' (List.replicate (n + 1) (char 'u') ++ digits) with
    hnil | ⟨tail, d, hconcat⟩
  · simp at hnil
  · exact ⟨tail, d, by rw [hconcat], hconcat ▸ hnot⟩

/-! ### Offsets -/

/-- Outside escapes the table goes on with the place it has reached. -/
theorem head?_offsetsFrom (place : Nat) (even : Bool) (text : List WideChar) :
    (offsetsFrom place even 0 text).head? = some place := by
  cases text with
  | nil => rfl
  | cons c rest =>
    rw [offsetsFrom, if_pos rfl]
    split <;> rfl

theorem offsetsFrom_plain (place : Nat) {c : WideChar} (rest : List WideChar) (hc : c ≠ char '\\') :
    offsetsFrom place true 0 (c :: rest) = place :: offsetsFrom (place + 1) true 0 rest := by
  rw [offsetsFrom, if_pos rfl, if_pos rfl, escapeLength?_plain rest hc]
  simp [hc]

theorem offsetsFrom_lone (place : Nat) :
    offsetsFrom place true 0 [char '\\'] = [place, place + 1] := rfl

theorem offsetsFrom_odd (place : Nat) (c : WideChar) (rest : List WideChar) :
    offsetsFrom place false 0 (c :: rest) = place :: offsetsFrom (place + 1) true 0 rest := by
  rw [offsetsFrom, if_pos rfl, if_neg (by simp)]
  simp

theorem offsetsFrom_pair (place : Nat) {c : WideChar} (rest : List WideChar) (hc : c ≠ char 'u') :
    offsetsFrom place true 0 (char '\\' :: c :: rest) =
      place :: (place + 1) :: offsetsFrom (place + 2) true 0 rest := by
  rw [offsetsFrom, if_pos rfl, if_pos rfl, escapeLength?_pair rest hc]
  simp [offsetsFrom_odd]

/-- The characters of an escape behind its backslash are passed over. -/
theorem offsetsFrom_skip (place skip : Nat) (text : List WideChar) (hskip : skip ≤ text.length) :
    offsetsFrom place true skip text = offsetsFrom (place + skip) true 0 (text.drop skip) := by
  induction text generalizing place skip with
  | nil =>
    obtain rfl : skip = 0 := by simpa using hskip
    rfl
  | cons c rest ih =>
    cases skip with
    | zero => rfl
    | succ skip =>
      rw [offsetsFrom, if_neg (by omega), Nat.add_sub_cancel, List.drop_succ_cons,
        ih (place + 1) skip (by simpa using hskip), Nat.add_assoc, Nat.add_comm 1 skip]

theorem offsetsFrom_written (place n : Nat) {tail : List WideChar} (htail : tail.head? ≠ some (char 'u'))
    (hlen : (tail.take 4).length = 4) (hhex : (tail.take 4).all isHexDigit) :
    offsetsFrom place true 0 (char '\\' :: (List.replicate (n + 1) (char 'u') ++ tail)) =
      place :: offsetsFrom (place + n + 6) true 0 (tail.drop 4) := by
  have hlen' : 4 ≤ tail.length := by
    rw [List.length_take] at hlen
    omega
  rw [offsetsFrom, if_pos rfl, if_pos rfl, escapeLength?_escape n tail htail,
    if_pos ⟨hlen, hhex⟩]
  show place :: offsetsFrom (place + 1) true (n + 5) _ = _
  rw [offsetsFrom_skip _ _ _ (by simp; omega)]
  congr 2
  · omega
  · rw [List.drop_append, List.drop_eq_nil_of_le (by simp), List.nil_append]
    simp

/-- An escape that is not written with four hexadecimal digits is counted character by character. -/
theorem offsetsFrom_unwritten (place n : Nat) {tail : List WideChar} (htail : tail.head? ≠ some (char 'u'))
    (h : ¬ ((tail.take 4).length = 4 ∧ (tail.take 4).all isHexDigit)) :
    offsetsFrom place true 0 (char '\\' :: (List.replicate (n + 1) (char 'u') ++ tail)) =
      place :: (place + 1) :: offsetsFrom (place + 2) true 0 (List.replicate n (char 'u') ++ tail) := by
  rw [offsetsFrom, if_pos rfl, if_pos rfl, escapeLength?_escape n tail htail, if_neg h,
    List.replicate_succ, List.cons_append]
  simp [offsetsFrom_odd]

theorem offsetsFrom_of_escape (place : Nat) {c : WideChar} {rest : List WideChar} {length : Nat}
    (h : escapeLength? (c :: rest) = some length) :
    offsetsFrom place true 0 (c :: rest) =
      place :: offsetsFrom (place + length) true 0 (rest.drop (length - 1)) := by
  have hsix := six_le_of_escapeLength? h
  have hle := (escapeLength?_eq_some_iff.1 h).1
  rw [List.length_cons] at hle
  rw [offsetsFrom, if_pos rfl, if_pos rfl, h]
  show place :: offsetsFrom (place + 1) true (length - 1) rest = _
  rw [offsetsFrom_skip _ _ _ (by omega), show place + 1 + (length - 1) = place + length by omega]

/-- A backslash that begins no escape is counted, and so is the character behind it. -/
theorem offsetsFrom_of_backslash (place : Nat) {rest : List WideChar}
    (h : escapeLength? (char '\\' :: rest) = none) :
    offsetsFrom place true 0 (char '\\' :: rest) = place :: offsetsFrom (place + 1) false 0 rest := by
  rw [offsetsFrom, if_pos rfl, if_pos rfl, h]
  rfl

end SourceDoc.Escape
