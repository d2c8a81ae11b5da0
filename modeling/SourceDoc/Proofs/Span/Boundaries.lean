import SourceDoc.Proofs.Span.Declarators

/-!
# Where the parts of a variable end

Behind the name of a variable come its dimensions, and then its initial value.  If another variable
follows, the value ends at a comma.  This is looked for outside brackets, as a comma behind which the
next name is declared.  It is found just if brackets that are opened in the value are closed in it, and
no comma in the value looks like it (`declaratorBoundary_eq_iff`).
-/

namespace SourceDoc.TokenText

open SourceDoc.Grammar SourceDoc.Grammar.Parser SourceDoc.Token SourceDoc.Tree

variable {src : TokenText} {i j : Nat} {name : String}

/-! ### Dimensions -/

/-- The partner of a bracket that is closed at once. -/
theorem closing_of_pair (hopen : Stands src.tokens i "[") (hclose : Stands src.tokens (i + 1) "]") :
    src.closing i = .ok ((i + 1 : Nat) : Int) := by
  obtain ⟨t, ht, hvalue⟩ := hopen
  obtain ⟨u, hu, hvalue'⟩ := hclose
  have hlookup : brackets.lookup "[" = some "]" := by decide
  rw [closing, token_natCast ht, tokensFrom_natCast, drop_eq_cons ht, drop_eq_cons hu]
  simp only [bind, Except.bind, hvalue, hlookup, closingFrom, hvalue', if_true]
  rfl

/-- **Dimensions are passed.** -/
theorem behindBrackets_of_pairs {n rounds : Nat} {value : String} (h : Pairs src.tokens i n)
    (hrounds : n ≤ rounds) (hnext : Stands src.tokens (i + 2 * n) value) (hvalue : value ≠ "[") :
    src.behindBrackets rounds i = .ok ((i + 2 * n : Nat) : Int) := by
  have hend : ∀ rounds, src.behindBrackets rounds ((i + 2 * n : Nat) : Int) =
      .ok ((i + 2 * n : Nat) : Int) := by
    obtain ⟨t, ht, rfl⟩ := hnext
    intro rounds
    cases rounds with
    | zero => rfl
    | succ rounds =>
      rw [behindBrackets, hasValue_eq_false ht (by decide) hvalue, if_neg Bool.false_ne_true]
  induction n generalizing i rounds with
  | zero => exact hend rounds
  | succ n ih =>
    obtain ⟨hopen, hclose, hrest⟩ := h
    cases rounds with
    | zero => omega
    | succ rounds =>
      rw [behindBrackets, if_pos ((hasValue_iff (by decide)).2 hopen), closing_of_pair hopen hclose]
      show src.behindBrackets rounds (((i + 1 : Nat) : Int) + 1) = _
      rw [show i + 2 * (n + 1) = i + 2 + 2 * n by omega] at hnext hend ⊢
      rw [← Int.natCast_succ]
      exact ih hrest (by omega) hnext hend

theorem stands_of_pairs {n : Nat} (h : Pairs src.tokens i n) (hlo : i ≤ j) (hhi : j < i + 2 * n) :
    Stands src.tokens j "[" ∨ Stands src.tokens j "]" := by
  induction n generalizing i with
  | zero => omega
  | succ n ih =>
    obtain ⟨hopen, hclose, hrest⟩ := h
    rcases Nat.eq_or_lt_of_le hlo with rfl | hlo
    · exact .inl hopen
    rcases Nat.eq_or_lt_of_le hlo with rfl | hlo
    · exact .inr hclose
    · exact ih hrest hlo (by omega)

theorem count_le_of_pairs {n : Nat} (h : Pairs src.tokens i n) : n ≤ src.size := by
  cases n with
  | zero => exact Nat.zero_le _
  | succ n =>
    have hlast : i + 2 * n + 1 < src.size :=
      (stands_of_pairs h (j := i + 2 * n + 1) (by omega) (by omega)).elim Stands.lt_size Stands.lt_size
    omega

/-! ### Boundaries -/

/-- A comma at a height, behind which a variable of the name is declared. -/
def Boundary (src : TokenText) (name : String) (base : Int) (k : Nat) : Prop :=
  Stands src.tokens k "," ∧ height .brackets src.tokens k = base ∧
    src.declaratorAt (k + 1 : Nat) name = true

theorem boundaryFrom_pass {depth : Int} {n : Nat} {t : Token} (ht : src.tokens[i]? = some t)
    (h : ¬(depth = 0 ∧ t.value = "," ∧ src.declaratorAt (i + 1 : Nat) name = true)) :
    src.boundaryFrom name depth i (n + 1) =
      src.boundaryFrom name (depth + Gauge.brackets.weight t.value) (i + 1 : Nat) n := by
  have hany : ∀ {side : String × String → String},
      (∀ pair ∈ brackets, Char.ofNat 0xfffd ∉ (side pair).toList) →
      (brackets.any (fun pair => src.hasValue i (side pair)) = true ↔
        t.value ∈ brackets.map side) := by
    intro side hplain
    rw [List.any_eq_true, List.mem_map]
    refine exists_congr fun pair => and_congr_right fun hmem => ?_
    rw [hasValue_iff (hplain pair hmem)]
    exact ⟨fun hstands => hstands.unique ⟨t, ht, rfl⟩, fun h => h ▸ ⟨t, ht, rfl⟩⟩
  rw [boundaryFrom, Int.natCast_succ]
  by_cases hopen : t.value ∈ brackets.map Prod.fst
  · rw [if_pos ((hany (by decide)).2 hopen), weight_opener hopen]
  rw [if_neg (fun h => hopen ((hany (by decide)).1 h))]
  by_cases hclose : t.value ∈ brackets.map Prod.snd
  · rw [if_pos ((hany (by decide)).2 hclose), weight_closer hclose]
    rfl
  rw [if_neg (fun h => hclose ((hany (by decide)).1 h)), if_neg, weight_other hopen hclose,
    Int.add_zero]
  rw [Bool.and_eq_true, Bool.and_eq_true, decide_eq_true_eq, hasValue_iff (by decide),
    ← Int.natCast_succ]
  rintro ⟨⟨hzero, hcomma⟩, hat⟩
  exact h ⟨hzero, (hcomma.unique ⟨t, ht, rfl⟩).symm, hat⟩

theorem boundaryFrom_stop {n : Nat} (hcomma : Stands src.tokens i ",")
    (hat : src.declaratorAt (i + 1 : Nat) name = true) :
    src.boundaryFrom name 0 i (n + 1) = some (i : Int) := by
  have hnot : ∀ {value : String}, Char.ofNat 0xfffd ∉ value.toList → value ≠ "," →
      src.hasValue i value = false := by
    obtain ⟨t, ht, hvalue⟩ := hcomma
    exact fun hplain hne => hasValue_eq_false ht hplain (by rw [hvalue]; exact hne.symm)
  rw [boundaryFrom, if_neg, if_neg, if_pos]
  · rw [(hasValue_iff (by decide)).2 hcomma, ← Int.natCast_succ, hat]
    rfl
  · rw [Bool.not_eq_true, List.any_eq_false]
    intro pair hmem
    have hsides : ∀ pair ∈ brackets, Char.ofNat 0xfffd ∉ pair.2.toList ∧ pair.2 ≠ "," := by decide
    rw [hnot (hsides pair hmem).1 (hsides pair hmem).2]
    exact Bool.false_ne_true
  · rw [Bool.not_eq_true, List.any_eq_false]
    intro pair hmem
    have hsides : ∀ pair ∈ brackets, Char.ofNat 0xfffd ∉ pair.1.toList ∧ pair.1 ≠ "," := by decide
    rw [hnot (hsides pair hmem).1 (hsides pair hmem).2]
    exact Bool.false_ne_true

/-- **A walk over a range finds the first boundary at the height of its start, or passes.** -/
theorem boundaryFrom_spec (base : Int) (hle : i ≤ j)
    (htokens : ∀ k, i ≤ k → k < j → ∃ t, src.tokens[k]? = some t) (n : Nat) :
    (∃ k, i ≤ k ∧ k < j ∧ Boundary src name base k ∧
      src.boundaryFrom name (height .brackets src.tokens i - base) i (j - i + n) = some (k : Int)) ∨
    ((∀ k, i ≤ k → k < j → ¬ Boundary src name base k) ∧
      src.boundaryFrom name (height .brackets src.tokens i - base) i (j - i + n) =
        src.boundaryFrom name (height .brackets src.tokens j - base) j n) := by
  obtain ⟨m, rfl⟩ := Nat.exists_eq_add_of_le hle
  clear hle
  induction m generalizing i with
  | zero =>
    refine .inr ⟨fun k hlo hhi => by omega, ?_⟩
    rw [Nat.add_zero, Nat.sub_self, Nat.zero_add]
  | succ m ih =>
    obtain ⟨t, ht⟩ := htokens i le_rfl (by omega)
    rw [show i + (m + 1) - i + n = i + 1 + m - (i + 1) + n + 1 by omega]
    by_cases hboundary : Boundary src name base i
    · obtain ⟨hcomma, hlevel, hat⟩ := hboundary
      refine .inl ⟨i, le_rfl, by omega, ⟨hcomma, hlevel, hat⟩, ?_⟩
      rw [hlevel, Int.sub_self]
      exact boundaryFrom_stop hcomma hat
    · have hweight : height .brackets src.tokens i - base + Gauge.brackets.weight t.value =
          height .brackets src.tokens (i + 1) - base := by
        rw [height_succ ht]
        omega
      rw [boundaryFrom_pass ht fun h => hboundary ⟨⟨t, ht, h.2.1⟩, by omega, h.2.2⟩, hweight,
        show i + (m + 1) = i + 1 + m by omega]
      rcases ih (i := i + 1) (fun k hlo hhi => htokens k (by omega) (by omega)) with
        ⟨k, hlo, hhi, hrest⟩ | ⟨hnone, hrest⟩
      · exact .inl ⟨k, by omega, hhi, hrest⟩
      · refine .inr ⟨fun k hlo hhi => ?_, hrest⟩
        rcases Nat.eq_or_lt_of_le hlo with rfl | hlo
        · exact hboundary
        · exact hnone k hlo hhi

theorem le_of_boundaryFrom {depth k r : Int} {n : Nat} (h : src.boundaryFrom name depth k n = some r) :
    k ≤ r := by
  induction n generalizing depth k with
  | zero => cases h
  | succ n ih =>
    rw [boundaryFrom] at h
    split at h
    · have := ih h
      omega
    · split at h
      · have := ih h
        omega
      · split at h
        · exact Int.le_of_eq (Option.some.inj h)
        · have := ih h
          omega

theorem declaratorBoundary_some {start stop : Int} (hname : name ≠ "") :
    src.declaratorBoundary start stop (some name) =
      (src.boundaryFrom name 0 start (stop - start).toNat).getD stop := by
  rw [declaratorBoundary]
  rintro rfl
  exact hname rfl

/-- **The comma before the next variable is found just if it is as high as the start, and no comma
before it looks like it.** -/
theorem declaratorBoundary_eq_iff {stop : Int} (hname : name ≠ "") (hle : i ≤ j) (hstop : j < stop)
    (htokens : ∀ k, i ≤ k → k < j → ∃ t, src.tokens[k]? = some t) (hcomma : Stands src.tokens j ",")
    (hat : src.declaratorAt (j + 1 : Nat) name = true) :
    src.declaratorBoundary i stop (some name) = j ↔
      height .brackets src.tokens j = height .brackets src.tokens i ∧
        ∀ k, i ≤ k → k < j → ¬ Boundary src name (height .brackets src.tokens i) k := by
  have hcount : ∃ n : Nat, (stop - (i : Int)).toNat = j - i + (n + 1) :=
    ⟨(stop - (j : Int)).toNat - 1, by omega⟩
  obtain ⟨n, hn⟩ := hcount
  rw [declaratorBoundary_some hname, hn, ← Int.sub_self (height .brackets src.tokens i)]
  rcases boundaryFrom_spec (height .brackets src.tokens i) hle htokens (n + 1) with
    ⟨k, hlo, hhi, hboundary, hfound⟩ | ⟨hnone, hfound⟩
  · rw [hfound, Option.getD_some]
    exact iff_of_false (by omega) fun h => h.2 k hlo hhi hboundary
  · rw [hfound, and_iff_left hnone]
    by_cases hlevel : height .brackets src.tokens j = height .brackets src.tokens i
    · rw [hlevel, Int.sub_self, boundaryFrom_stop hcomma hat]
      exact iff_of_true rfl rfl
    · -- The comma is passed, so it is not what is found.
      obtain ⟨t, ht, hvalue⟩ := hcomma
      rw [boundaryFrom_pass ht fun h => hlevel (by omega)]
      refine iff_of_false (fun h => ?_) hlevel
      cases hrest : src.boundaryFrom name _ ((j + 1 : Nat) : Int) n with
      | none =>
        rw [hrest, Option.getD_none] at h
        omega
      | some r =>
        have := le_of_boundaryFrom hrest
        rw [hrest, Option.getD_some] at h
        omega

end SourceDoc.TokenText
