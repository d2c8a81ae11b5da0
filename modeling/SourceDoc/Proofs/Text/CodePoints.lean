import Mathlib.Data.List.TakeDrop
import SourceDoc.Text.Blank
import SourceDoc.Text.Digit

/-!
# Classes of characters that share nothing

Whether two sets of code points share a member is found out by one pass over the places where
membership changes (`CodePointSet.areApart`), which is quick enough for the tables of all scripts.
The runs of decimal digits are brought into that form (`contains_decimalRuns`).  Blanks are so few
that a class is compared with each of them (`isBlankChar_eq_false`).
-/

namespace SourceDoc.Text

namespace CodePointSet

/-- Whether no number is in both sets, given whether the numbers before the next changes are.  Each
round passes a change, or two if both sets change at one place. -/
def areApartWithin : Nat → Bool → Bool → List Nat → List Nat → Bool
  | 0, _, _, _, _ => false
  | rounds + 1, p, q, as, bs =>
    !(p && q) && match as, bs with
      | [], [] => true
      | _ :: as, [] => areApartWithin rounds (!p) q as []
      | [], _ :: bs => areApartWithin rounds p (!q) [] bs
      | a :: as, b :: bs =>
        if a < b then areApartWithin rounds (!p) q as (b :: bs)
        else if b < a then areApartWithin rounds p (!q) (a :: as) bs
        else areApartWithin rounds (!p) (!q) as bs

/-- Whether two sets have no member in common. -/
def areApart (s t : CodePointSet) : Bool :=
  areApartWithin (s.changes.length + t.changes.length + 1) false false s.changes t.changes

theorem containsFrom_of_lt {n a : Nat} (h : n < a) (inside : Bool) (as : List Nat) :
    containsFrom n inside (a :: as) = inside := if_pos h

theorem containsFrom_of_le {n a : Nat} (h : a ≤ n) (inside : Bool) (as : List Nat) :
    containsFrom n inside (a :: as) = containsFrom n (!inside) as := if_neg (Nat.not_lt.2 h)

/-- The pass over the changes misses no number. -/
theorem areApartWithin_sound {rounds : Nat} {p q : Bool} {as bs : List Nat}
    (h : areApartWithin rounds p q as bs = true) (n : Nat) :
    (containsFrom n p as && containsFrom n q bs) = false := by
  induction rounds generalizing p q as bs with
  | zero => cases h
  | succ rounds ih =>
    unfold areApartWithin at h
    rw [Bool.and_eq_true, Bool.not_eq_true'] at h
    obtain ⟨hnow, h⟩ := h
    cases as with
    | nil =>
      cases bs with
      | nil => exact hnow
      | cons b bs =>
        rcases Nat.lt_or_ge n b with hn | hn
        · rwa [containsFrom_of_lt hn]
        · rw [containsFrom_of_le hn]
          exact ih h
    | cons a as =>
      cases bs with
      | nil =>
        rcases Nat.lt_or_ge n a with hn | hn
        · rwa [containsFrom_of_lt hn]
        · rw [containsFrom_of_le hn]
          exact ih h
      | cons b bs =>
        -- Before both changes nothing is in both sets; behind the first of them goes the next round.
        by_cases hboth : n < a ∧ n < b
        · rwa [containsFrom_of_lt hboth.1, containsFrom_of_lt hboth.2]
        dsimp only at h
        split_ifs at h with hab hba
        · rw [containsFrom_of_le (show a ≤ n by omega)]
          exact ih h
        · rw [containsFrom_of_le (show b ≤ n by omega)]
          exact ih h
        · rw [containsFrom_of_le (show a ≤ n by omega), containsFrom_of_le (show b ≤ n by omega)]
          exact ih h

/-- **Sets that are found to be apart have no member in common.** -/
theorem contains_eq_false_of_areApart {s t : CodePointSet} (h : areApart s t = true) {c : Char}
    (hc : s.contains c = true) : t.contains c = false := by
  have hnone := areApartWithin_sound h c.toNat
  rw [contains] at hc
  rwa [hc, Bool.true_and] at hnone

end CodePointSet

/-! ### Digits -/

/-- Runs of ten numbers, as a set. -/
def runsFrom (zeros : List Nat) : CodePointSet := ⟨zeros.flatMap fun first => [first, first + 10]⟩

/-- The decimal digits of every script, as a set. -/
def decimalRuns : CodePointSet := runsFrom decimalZeros

/-- Runs that do not overlap contain each of their numbers. -/
theorem containsFrom_runsFrom {zeros : List Nat} (h : zeros.Pairwise fun a b => a + 10 ≤ b)
    {n first : Nat} (hfirst : first ∈ zeros) (hlo : first ≤ n) (hhi : n < first + 10) :
    CodePointSet.containsFrom n false (runsFrom zeros).changes = true := by
  induction h with
  | nil => cases hfirst
  | @cons next zeros hnext _ ih =>
    show CodePointSet.containsFrom n false (next :: (next + 10) :: (runsFrom zeros).changes) = true
    rcases List.mem_cons.1 hfirst with rfl | hfirst
    · rw [CodePointSet.containsFrom_of_le hlo, CodePointSet.containsFrom_of_lt hhi]
      rfl
    · have hle := hnext first hfirst
      rw [CodePointSet.containsFrom_of_le (by omega), CodePointSet.containsFrom_of_le (by omega)]
      exact ih hfirst

/-- Every decimal digit stands in a run of ten. -/
theorem contains_decimalRuns {c : Char} (h : (digitValue? c).isSome = true) :
    decimalRuns.contains c = true := by
  have hruns : decimalZeros.Pairwise fun a b => a + 10 ≤ b := by decide
  obtain ⟨first, hfirst, hlo, hhi⟩ :
      ∃ first ∈ decimalZeros, first ≤ c.toNat ∧ c.toNat < first + 10 := by
    unfold digitValue? at h
    split at h
    · split at h
      · rename_i hdigit
        have hrange := Char.isDigit_iff_toNat.1 hdigit
        exact ⟨0x30, by decide, hrange.1, Nat.lt_succ_of_le hrange.2⟩
      · cases h
    · rw [Option.isSome_map, List.find?_isSome] at h
      obtain ⟨first, hfirst, hin⟩ := h
      rw [Bool.and_eq_true, decide_eq_true_eq, decide_eq_true_eq] at hin
      exact ⟨first, hfirst, hin⟩
  exact containsFrom_runsFrom hruns hfirst hlo hhi

/-! ### Blanks -/

/-- The numbers of the blanks. -/
def blankCodes : List Nat :=
  [0x09, 0x0a, 0x0b, 0x0c, 0x0d, 0x1c, 0x1d, 0x1e, 0x1f, 0x20, 0x85, 0xa0, 0x1680, 0x2000, 0x2001,
    0x2002, 0x2003, 0x2004, 0x2005, 0x2006, 0x2007, 0x2008, 0x2009, 0x200a, 0x2028, 0x2029, 0x202f,
    0x205f, 0x3000]

theorem mem_blankCodes {c : Char} (h : isBlankChar c = true) : c.toNat ∈ blankCodes := by
  simp only [isBlankChar, Bool.or_eq_true, Bool.and_eq_true, decide_eq_true_eq, beq_iff_eq] at h
  simp only [blankCodes, List.mem_cons, List.not_mem_nil]
  omega

/-- A test that fails on the characters with some numbers. -/
theorem eq_false_of_mem_codes {test : Char → Bool} {codes : List Nat}
    (htest : ∀ n ∈ codes, test (Char.ofNat n) = false) {c : Char} (hc : c.toNat ∈ codes) :
    test c = false := by
  have hnone := htest c.toNat hc
  rwa [Char.ofNat_toNat] at hnone

/-- What passes a test that fails on all blanks is not blank. -/
theorem isBlankChar_eq_false {test : Char → Bool}
    (htest : ∀ n ∈ blankCodes, test (Char.ofNat n) = false) {c : Char} (hc : test c = true) :
    isBlankChar c = false := by
  refine Bool.eq_false_iff.2 fun hblank => ?_
  rw [eq_false_of_mem_codes htest (mem_blankCodes hblank)] at hc
  cases hc

end SourceDoc.Text
