import SourceDoc.Proofs.Text.Trimmed
import SourceDoc.Text.Numeral

/-!
# Decimal integers

The integers that a text can write are given by a grammar: digits of any script, with single underscores
between them, and one sign in front (`WritesInteger`).  A text without blanks around it is read as an
integer exactly if the grammar has it and there are not too many digits (`decimal?_eq_some_iff`).
-/

namespace SourceDoc.Text

/-! ### The grammar -/

/-- Decimal digits, between any two of which an underscore may stand, and their values. -/
inductive Digits : List Char → List Nat → Prop where
  | last {c : Char} {d : Nat} (h : digitValue? c = some d) : Digits [c] [d]
  | next {c : Char} {d : Nat} {text : List Char} {ds : List Nat} (h : digitValue? c = some d)
      (hrest : Digits text ds) : Digits (c :: text) (d :: ds)
  | apart {c : Char} {d : Nat} {text : List Char} {ds : List Nat} (h : digitValue? c = some d)
      (hrest : Digits text ds) : Digits (c :: '_' :: text) (d :: ds)

/-- The number that digits write, behind a number that was written before. -/
def numberAfter (n : Nat) (digits : List Nat) : Nat := digits.foldl (fun n d => n * 10 + d) n

/-- A text that writes an integer: digits, with or without a sign in front of them. -/
inductive WritesInteger : List Char → Int → Prop where
  | plain {text : List Char} {ds : List Nat} (h : Digits text ds) :
      WritesInteger text (numberAfter 0 ds)
  | plus {text : List Char} {ds : List Nat} (h : Digits text ds) :
      WritesInteger ('+' :: text) (numberAfter 0 ds)
  | minus {text : List Char} {ds : List Nat} (h : Digits text ds) :
      WritesInteger ('-' :: text) (-(numberAfter 0 ds : Int))

/-- How many digits a text has. -/
def digitCount (text : List Char) : Nat := text.countP fun c => (digitValue? c).isSome

/-- What may follow a digit: nothing, further digits, or an underscore and further digits. -/
def Follows (text : List Char) (ds : List Nat) : Prop :=
  (text = [] ∧ ds = []) ∨ Digits text ds ∨ ∃ rest, text = '_' :: rest ∧ Digits rest ds

theorem digits_cons_iff {c : Char} {text : List Char} {ds : List Nat} :
    Digits (c :: text) ds ↔ ∃ d rest, ds = d :: rest ∧ digitValue? c = some d ∧ Follows text rest := by
  constructor
  · intro h
    cases h with
    | last hc => exact ⟨_, _, rfl, hc, .inl ⟨rfl, rfl⟩⟩
    | next hc hrest => exact ⟨_, _, rfl, hc, .inr (.inl hrest)⟩
    | apart hc hrest => exact ⟨_, _, rfl, hc, .inr (.inr ⟨_, rfl, hrest⟩)⟩
  · rintro ⟨d, rest, rfl, hc, ⟨rfl, rfl⟩ | hrest | ⟨tail, rfl, htail⟩⟩
    · exact .last hc
    · exact .next hc hrest
    · exact .apart hc htail

/-- Digits begin with a digit. -/
theorem not_digits_cons {c : Char} (hc : digitValue? c = none) (text : List Char) (ds : List Nat) :
    ¬ Digits (c :: text) ds := by
  simp [digits_cons_iff, hc]

theorem not_digits_nil (ds : List Nat) : ¬ Digits [] ds := by
  intro h
  cases h

/-! ### Reading digits -/

theorem digitValue?_lt {c : Char} {d : Nat} (h : digitValue? c = some d) : d < 10 := by
  unfold digitValue? at h
  split_ifs at h with hascii hdigit
  · have hupper : c.toNat ≤ 57 := by
      simp only [Char.isDigit, Bool.and_eq_true, decide_eq_true_eq] at hdigit
      exact hdigit.2
    simp only [Option.some.injEq] at h
    omega
  · obtain ⟨first, hfirst, rfl⟩ := Option.map_eq_some_iff.1 h
    have hrun := List.find?_some hfirst
    simp only [Bool.and_eq_true, decide_eq_true_eq] at hrun
    omega

/-- In base ten no letters count as digits. -/
theorem digitIn?_ten (c : Char) : digitIn? 10 c = digitValue? c := by
  unfold digitIn?
  cases h : digitValue? c with
  | some d => simpa using digitValue?_lt h
  | none =>
    dsimp only
    split_ifs <;> simp

/-- **Digits are read exactly if the grammar has them**: at the start, and also behind a digit, where an
underscore may stand.  `acc` is the number that was read before. -/
theorem digitsFrom?_ten_iff (text : List Char) : ∀ acc n : Nat,
    (digitsFrom? 10 acc false text = some n ↔ ∃ ds, Digits text ds ∧ numberAfter acc ds = n) ∧
      (digitsFrom? 10 acc true text = some n ↔ ∃ ds, Follows text ds ∧ numberAfter acc ds = n) := by
  induction text with
  | nil =>
    intro acc n
    simp [digitsFrom?, Follows, not_digits_nil, numberAfter]
  | cons c text ih =>
    intro acc n
    by_cases hc : c = '_'
    · -- An underscore has to follow a digit, and a digit has to follow it.
      have hnone : digitValue? '_' = none := by decide
      simp [digitsFrom?, hc, Follows, not_digits_cons hnone, (ih acc n).1]
    · have hfollows : ∀ ds, Follows (c :: text) ds ↔ Digits (c :: text) ds := by
        intro ds
        simp [Follows, hc]
      have hread : ∀ closed, digitsFrom? 10 acc closed (c :: text) = some n ↔
          ∃ ds, Digits (c :: text) ds ∧ numberAfter acc ds = n := by
        intro closed
        rw [digitsFrom?, if_neg hc, digitIn?_ten]
        cases hdigit : digitValue? c with
        | none => simp [not_digits_cons hdigit]
        | some d =>
          simp only [(ih (acc * 10 + d) n).2, digits_cons_iff, hdigit, Option.some.injEq]
          constructor
          · rintro ⟨ds, hds, hn⟩
            exact ⟨d :: ds, ⟨d, ds, rfl, rfl, hds⟩, hn⟩
          · rintro ⟨_, ⟨d, ds, rfl, rfl, hds⟩, hn⟩
            exact ⟨ds, hds, hn⟩
      simp only [hfollows]
      exact ⟨hread false, hread true⟩

theorem magnitude?_ten_iff {text : List Char} {n : Nat} :
    magnitude? 10 text = some n ↔ ∃ ds, Digits text ds ∧ numberAfter 0 ds = n :=
  (digitsFrom?_ten_iff text 0 n).1

/-! ### Reading integers -/

/-- A text without blanks around it has no padding. -/
theorem dropPadding_eq_self {text : List Char} (h : trim text = text) :
    ((text.dropWhile isPadding).reverse.dropWhile isPadding).reverse = text := by
  obtain ⟨hfirst, hlast⟩ := trim_eq_self_iff.1 h
  have hpadding : ∀ c : Char, isBlank c = false → isPadding c = false := by
    intro c hc
    simp [isPadding, hc]
  have hleft : text.dropWhile isPadding = text := by
    cases text with
    | nil => rfl
    | cons c text => simp [hpadding c (hfirst c rfl)]
  rw [hleft]
  show text.rdropWhile isPadding = text
  rw [List.rdropWhile_eq_self_iff]
  intro hne
  simp [hpadding _ (hlast _ (List.getLast?_eq_some_getLast hne))]

theorem integer?_ten_iff {text : List Char} (h : trim text = text) {n : Int} :
    integer? 10 text = some n ↔ WritesInteger text n := by
  have hplus : digitValue? '+' = none := by decide
  have hminus : digitValue? '-' = none := by decide
  unfold integer?
  rw [dropPadding_eq_self h]
  constructor
  · intro hread
    split at hread
    · obtain ⟨m, hm, rfl⟩ := Option.map_eq_some_iff.1 hread
      obtain ⟨ds, hds, rfl⟩ := magnitude?_ten_iff.1 hm
      exact .plus hds
    · simp only [Option.pure_def, Option.bind_eq_bind, Option.map_bind,
        Option.bind_eq_some_iff] at hread
      obtain ⟨m, hm, hn⟩ := hread
      obtain ⟨ds, hds, rfl⟩ := magnitude?_ten_iff.1 hm
      rw [← Option.some.inj hn]
      exact .minus hds
    · obtain ⟨m, hm, rfl⟩ := Option.map_eq_some_iff.1 hread
      obtain ⟨ds, hds, rfl⟩ := magnitude?_ten_iff.1 hm
      exact .plain hds
  · intro hwrites
    cases hwrites with
    | plus hds => simp [magnitude?_ten_iff.2 ⟨_, hds, rfl⟩]
    | minus hds => simp [magnitude?_ten_iff.2 ⟨_, hds, rfl⟩]
    | plain hds =>
      -- Digits do not begin with a sign.
      split
      · exact absurd hds (not_digits_cons hplus _ _)
      · exact absurd hds (not_digits_cons hminus _ _)
      · simp [magnitude?_ten_iff.2 ⟨_, hds, rfl⟩]

/-- **A text is read as a decimal integer exactly if it writes one with no more digits than the limit.** -/
theorem decimal?_eq_some_iff {text : List Char} (h : trim text = text) {n : Int} :
    decimal? text = some n ↔ WritesInteger text n ∧ digitCount text ≤ digitLimit := by
  unfold decimal?
  rw [← digitCount]
  split_ifs with hlimit <;> simp [integer?_ten_iff h, hlimit]

end SourceDoc.Text
