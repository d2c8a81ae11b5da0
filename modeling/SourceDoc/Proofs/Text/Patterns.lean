import Mathlib.Data.List.TakeWhile
import SourceDoc.Text.Pattern

/-!
# Rows and repetitions of one kind

The places where a match can end are those that it reaches by moving on (`Cursor.past`).  A row of code
points of one kind needs as many of them in front of it (`Pattern.ends_row_replicate`), and a repetition of
such rows can stop after each round, the last one first (`Pattern.ends_many`).
-/

namespace SourceDoc.Text

/-! ### Moving on -/

namespace Cursor

/-- The place a number of code points further. -/
def past (cursor : Cursor) : Nat → Cursor
  | 0 => cursor
  | n + 1 => cursor.next.past n

variable {cursor : Cursor}

theorem rest_next (cursor : Cursor) : cursor.next.rest = cursor.rest.tail := by
  unfold next
  split <;> simp_all

theorem place_next (h : cursor.rest ≠ []) : cursor.next.place = cursor.place + 1 := by
  unfold next
  split
  · contradiction
  · rfl

theorem behind_next {c : WideChar} {rest : List WideChar} (h : cursor.rest = c :: rest) :
    cursor.next.behind = some c := by
  simp [next, h]

theorem past_past (cursor : Cursor) (m n : Nat) : (cursor.past m).past n = cursor.past (m + n) := by
  induction m generalizing cursor with
  | zero => rw [Nat.zero_add, past]
  | succ m ih => rw [Nat.succ_add, past, past, ih]

theorem rest_past (cursor : Cursor) (n : Nat) : (cursor.past n).rest = cursor.rest.drop n := by
  induction n generalizing cursor with
  | zero => rfl
  | succ n ih => rw [past, ih, rest_next, List.drop_tail]

theorem place_past {n : Nat} (h : n ≤ cursor.rest.length) :
    (cursor.past n).place = cursor.place + n := by
  induction n generalizing cursor with
  | zero => rfl
  | succ n ih =>
    have hne : cursor.rest ≠ [] := List.ne_nil_of_length_pos (by omega)
    rw [past, ih (by rw [rest_next, List.length_tail]; omega), place_next hne]
    omega

theorem behind_past {n : Nat} (h : n < cursor.rest.length) :
    (cursor.past (n + 1)).behind = cursor.rest[n]? := by
  have hone (cursor : Cursor) : cursor.past 1 = cursor.next := rfl
  have hrest : (cursor.past n).rest = cursor.rest[n] :: cursor.rest.drop (n + 1) := by
    rw [rest_past, List.drop_eq_getElem_cons h]
  rw [← past_past, hone, List.getElem?_eq_getElem h]
  exact behind_next hrest

/-- How many code points of a kind come next. -/
def run (kind : WideChar → Bool) (cursor : Cursor) : Nat :=
  (cursor.rest.takeWhile kind).length

theorem run_le (kind : WideChar → Bool) (cursor : Cursor) : cursor.run kind ≤ cursor.rest.length :=
  (List.takeWhile_sublist kind).length_le

theorem run_past {kind : WideChar → Bool} {n : Nat} (h : n ≤ cursor.run kind) :
    (cursor.past n).run kind = cursor.run kind - n := by
  induction n generalizing cursor with
  | zero => rfl
  | succ n ih =>
    have hnext : cursor.next.run kind + 1 = cursor.run kind := by
      unfold run at h ⊢
      rw [rest_next]
      cases hrest : cursor.rest with
      | nil => simp [hrest] at h
      | cons c rest =>
        cases hc : kind c with
        | false => simp [hrest, hc] at h
        | true => simp [hc]
    rw [past, ih (by omega)]
    omega

end Cursor

/-! ### Matches -/

namespace Pattern

/-- One code point of a kind. -/
theorem ends_one (kind : WideChar → Bool) (cursor : Cursor) :
    (one kind).ends cursor = if 1 ≤ cursor.run kind then [cursor.past 1] else [] := by
  rw [ends]
  cases hrest : cursor.rest with
  | nil => simp [Cursor.run, hrest]
  | cons c rest => cases hc : kind c <;> simp [Cursor.run, Cursor.past, hrest, hc]

/-- A row of code points of one kind. -/
theorem ends_row_replicate (kind : WideChar → Bool) (n : Nat) (cursor : Cursor) :
    (row (List.replicate n (.one kind))).ends cursor =
      if n ≤ cursor.run kind then [cursor.past n] else [] := by
  induction n generalizing cursor with
  | zero => rfl
  | succ n ih =>
    have hstep : (row (List.replicate (n + 1) (.one kind))).ends cursor =
        ((one kind).ends cursor).flatMap (row (List.replicate n (.one kind))).ends := rfl
    rw [hstep, ends_one]
    split
    · rename_i hone
      rw [List.flatMap_singleton, ih, Cursor.run_past hone, Cursor.past_past, Nat.add_comm 1 n]
      exact if_congr (by omega) rfl rfl
    · exact (if_neg (by omega)).symm

/-- A row of code points of one kind is repeated as long as the kind comes next, and may stop after any
number of rounds before. -/
theorem ends_many {kind : WideChar → Bool} {pattern : Pattern} {width : Nat} (hwidth : 0 < width)
    (hends : ∀ cursor, pattern.ends cursor =
      if width ≤ cursor.run kind then [cursor.past width] else []) (cursor : Cursor) :
    (many pattern).ends cursor =
      (List.range (cursor.run kind / width + 1)).reverse.map fun i => cursor.past (width * i) := by
  have hrounds (left : List WideChar) (cursor : Cursor) (hleft : cursor.run kind ≤ left.length) :
      rounds pattern.ends left cursor =
        (List.range (cursor.run kind / width + 1)).reverse.map fun i => cursor.past (width * i) := by
    induction left generalizing cursor with
    | nil =>
      have hzero : cursor.run kind = 0 := by simpa using hleft
      rw [rounds, hzero, Nat.zero_div]
      rfl
    | cons c left ih =>
      rw [rounds, hends]
      by_cases hrun : width ≤ cursor.run kind
      · have hlen := cursor.run_le kind
        have hplace : cursor.place < (cursor.past width).place := by
          rw [Cursor.place_past (by omega)]
          omega
        have hdiv : cursor.run kind / width = (cursor.past width).run kind / width + 1 := by
          rw [Cursor.run_past hrun, Nat.div_eq_sub_div hwidth hrun]
        have hpast (i : Nat) : cursor.past (width * (i + 1)) = (cursor.past width).past (width * i) := by
          rw [Cursor.past_past, Nat.mul_succ, Nat.add_comm]
        rw [if_pos hrun, List.filter_cons_of_pos (by simpa using hplace), List.filter_nil,
          List.flatMap_singleton, ih _ (by rw [Cursor.run_past hrun]; simp at hleft; omega), hdiv,
          List.range_succ_eq_map (n := (cursor.past width).run kind / width + 1)]
        simp [hpast, Cursor.past]
      · rw [if_neg hrun, Nat.div_eq_of_lt (by omega)]
        rfl
  exact hrounds cursor.rest cursor (cursor.run_le kind)

end Pattern

end SourceDoc.Text
