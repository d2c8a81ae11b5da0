import SourceDoc.Proofs.Span.Searches

/-!
# Square brackets behind the variables of a field

The initial values of a field are looked for from one variable to the next.  Behind what is taken for the
name of a variable (`Taken`), square brackets are passed from each to its partner (`Passed`).  So the
partners are looked for of certain square brackets (`Dimension`), and the values are found if these are
closed (`gives_readInitializers`), and only if they are (`not_unclosed_of_readInitializers`).
-/

namespace SourceDoc.TokenText

open SourceDoc.Grammar SourceDoc.Grammar.Parser SourceDoc.Token SourceDoc.Tree

/-- Closed square brackets, each just behind the partner of the one before, lead from one place to
another. -/
inductive Passed (tokens : Array Token) : Nat → Nat → Prop where
  | refl (j : Nat) : Passed tokens j j
  | step {j c k : Nat} (hopen : Stands tokens j "[") (hpartner : PartnerFrom tokens "[" j (j + 1) c)
      (h : Passed tokens (c + 1) k) : Passed tokens j k

/-- A token is taken for the name of a variable in a field at a position.  The names are its own and those
of the variables behind it. -/
inductive Taken (src : TokenText) (position : Option Position) (declared : List (String × Bool))
    (stop : Int) : Nat → List String → Prop where
  /-- The first variable is looked for from the first token of the field on, if one of them has an initial
  value. -/
  | first {anchor i : Nat} {t : Token} (hvalue : ∃ d ∈ declared, d.2 = true)
      (ht : src.tokens[anchor]? = some t) (hposition : position = some t.position)
      (hstop : src.statementEnd anchor = .ok stop)
      (hfirst : src.firstDeclarator anchor stop ((declared.map (·.1)).headD "") = some (i : Int)) :
      Taken src position declared stop i (declared.map (·.1))
  /-- The next one stands behind the comma at which the part of a variable ends, which begins behind its
  square brackets. -/
  | next {i j b : Nat} {name : String} {others : List String}
      (h : Taken src position declared stop i (name :: others)) (hpassed : Passed src.tokens (i + 1) j)
      (hbehind : ¬ Stands src.tokens j "[") (hpart : (src.part stop j others.head?).2 = (b : Int))
      (hlt : (b : Int) < stop) : Taken src position declared stop (b + 1) others

/-- A square bracket whose partner is looked for when the initial values of a field are read: it stands
behind what is taken for the name of a variable, with nothing but closed square brackets between. -/
def Dimension (src : TokenText) (position : Option Position) (declared : List (String × Bool))
    (k : Nat) : Prop :=
  ∃ stop i name others, Taken src position declared stop i (name :: others) ∧
    Passed src.tokens (i + 1) k ∧ Stands src.tokens k "["

variable {src : TokenText} {tokens : Array Token} {E : SpanFault → Prop} {α : Type}
  {read : Int → Int → Except SpanFault α} {position : Option Position}
  {declared : List (String × Bool)} {stop : Int} {i j k : Nat}

/-! ### Passing brackets -/

theorem Passed.le (h : Passed tokens j k) : j ≤ k := by
  induction h with
  | refl j => exact le_rfl
  | step hopen hpartner h ih =>
    have := hpartner.le
    omega

theorem Passed.sub_le_size (h : Passed tokens j k) : k - j ≤ tokens.size := by
  have hbound : k = j ∨ k ≤ tokens.size := by
    induction h with
    | refl j => exact .inl rfl
    | step hopen hpartner h ih =>
      have := hpartner.lt_size
      omega
  omega

/-- One round passes a closed square bracket. -/
theorem behindBrackets_succ {c : Nat} (hopen : Stands src.tokens j "[")
    (hpartner : PartnerFrom src.tokens "[" j (j + 1) c) (rounds : Nat) :
    src.behindBrackets (rounds + 1) j = src.behindBrackets rounds ((c + 1 : Nat) : Int) := by
  rw [behindBrackets, if_pos ((hasValue_iff (by decide)).2 hopen),
    closing_of_partnerFrom hopen (by decide) hpartner]
  rfl

/-- **Brackets that are passed lead to the place behind them.** -/
theorem Passed.behindBrackets_eq (h : Passed src.tokens j k) (hbehind : ¬ Stands src.tokens k "[")
    {rounds : Nat} (hrounds : k - j ≤ rounds) : src.behindBrackets rounds j = .ok (k : Int) := by
  induction h generalizing rounds with
  | refl j =>
    cases rounds with
    | zero => rfl
    | succ rounds =>
      rw [behindBrackets, if_neg]
      rwa [hasValue_iff (by decide)]
  | step hopen hpartner h ih =>
    have hle := h.le
    have hpos := hpartner.le
    obtain ⟨rounds, rfl⟩ : ∃ n, rounds = n + 1 := ⟨rounds - 1, by omega⟩
    rw [behindBrackets_succ hopen hpartner]
    exact ih hbehind (by omega)

/-- If the place behind brackets is found, those are closed that are passed to. -/
theorem Passed.not_unclosed (h : Passed src.tokens j k) (hopen : Stands src.tokens k "[")
    {rounds : Nat} (hrounds : k - j < rounds) {found : Int}
    (hfound : src.behindBrackets rounds j = .ok found) : ¬ Unclosed src.tokens k := by
  induction h generalizing rounds with
  | refl j =>
    obtain ⟨rounds, rfl⟩ : ∃ n, rounds = n + 1 := ⟨rounds - 1, by omega⟩
    rw [behindBrackets, if_pos ((hasValue_iff (by decide)).2 hopen)] at hfound
    obtain ⟨closer, hcloser, -⟩ := Except.bind_eq_ok hfound
    exact not_unclosed_of_closing hcloser hopen (by decide)
  | step hfirst hpartner h ih =>
    have hle := h.le
    have hpos := hpartner.le
    obtain ⟨rounds, rfl⟩ : ∃ n, rounds = n + 1 := ⟨rounds - 1, by omega⟩
    rw [behindBrackets_succ hfirst hpartner] at hfound
    exact ih hopen (by omega) hfound

/-- **The place behind square brackets is found, unless one of them is unclosed.**  Where the rounds give
out, as many tokens have been passed. -/
theorem gives_behindBrackets (hbracket : ∀ k t, Passed src.tokens j k → src.tokens[k]? = some t →
      t.value = "[" → Unclosed src.tokens k → E (.unbalanced t.value t.position)) (rounds : Nat) :
    Except.Gives E (fun found : Int => ∃ k : Nat, found = k ∧ Passed src.tokens j k ∧
      (Stands src.tokens k "[" → j + rounds ≤ k)) (src.behindBrackets rounds j) := by
  induction rounds generalizing j with
  | zero => exact .ok ⟨j, rfl, .refl j, fun _ => le_rfl⟩
  | succ rounds ih =>
    by_cases hopen : Stands src.tokens j "["
    · obtain ⟨t, ht, hvalue⟩ := hopen
      rcases closing_cases ht (by rw [hvalue]; decide) with ⟨-, c, hpartner, -⟩ | ⟨hunclosed, hfault⟩
      · rw [hvalue] at hpartner
        rw [behindBrackets_succ ⟨t, ht, hvalue⟩ hpartner]
        have hle := hpartner.le
        refine (ih fun k u hpassed => hbracket k u (.step ⟨t, ht, hvalue⟩ hpartner hpassed)).mono
          (fun _ h => h) ?_
        rintro found ⟨k, rfl, hpassed, hmany⟩
        exact ⟨k, rfl, .step ⟨t, ht, hvalue⟩ hpartner hpassed, fun h => by have := hmany h; omega⟩
      · rw [behindBrackets, if_pos ((hasValue_iff (by decide)).2 ⟨t, ht, hvalue⟩), hfault]
        exact .error (hbracket j t (.refl j) ht hvalue hunclosed)
    · rw [behindBrackets, if_neg (by rwa [hasValue_iff (by decide)])]
      exact .ok ⟨j, rfl, .refl j, fun h => absurd h hopen⟩

/-! ### Variables -/

/-- What is found of the end of a variable: the end of the declaration, or a comma before it. -/
theorem declaratorBoundary_cases (src : TokenText) (start stop : Int) (next : Option String) :
    src.declaratorBoundary start stop next = stop ∨
      (start ≤ src.declaratorBoundary start stop next ∧
        src.declaratorBoundary start stop next < stop) := by
  have hlt : ∀ {name : String} {depth m r : Int} {n : Nat},
      src.boundaryFrom name depth m n = some r → r < m + n := by
    intro name depth m r n h
    induction n generalizing depth m with
    | zero => cases h
    | succ n ih =>
      rw [boundaryFrom] at h
      split at h
      · have := ih h
        omega
      · split at h
        · have := ih h
          omega
        · split at h
          · have := Option.some.inj h
            omega
          · have := ih h
            omega
  unfold declaratorBoundary
  split
  · exact .inl rfl
  · exact .inl rfl
  · rename_i name hname
    cases hfound : src.boundaryFrom name 0 start (stop - start).toNat with
    | none => exact .inl rfl
    | some r =>
      have hlo := le_of_boundaryFrom hfound
      have hhi := hlt hfound
      have hpos : 0 < (stop - start).toNat := by
        rcases Nat.eq_zero_or_pos (stop - start).toNat with hzero | hpos
        · rw [hzero] at hfound
          cases hfound
        · exact hpos
      exact .inr ⟨hlo, by rw [Option.getD_some]; omega⟩

/-- The part of a variable begins behind its brackets and ends within the declaration. -/
theorem part_within (src : TokenText) (stop : Int) (k : Nat) (next : Option String) :
    (∀ range, (src.part stop k next).1 = some range → 0 ≤ range.1 ∧ range.2 < stop) ∧
      ((src.part stop k next).2 < stop → ∃ b : Nat, (src.part stop k next).2 = b) := by
  rw [part]
  split
  · have hcases := declaratorBoundary_cases src (k + 1) stop next
    refine ⟨?_, fun h => ?_⟩
    · rintro _ ⟨⟩
      exact ⟨by omega, by dsimp only; omega⟩
    · exact Int.eq_ofNat_of_zero_le (by dsimp only at h ⊢; omega)
  · have hcases := declaratorBoundary_cases src k stop next
    refine ⟨fun range hrange => ?_, fun h => ?_⟩
    · cases hrange
    · exact Int.eq_ofNat_of_zero_le (by dsimp only at h ⊢; omega)

/-- **Initial values are read within the declaration, unless a square bracket is unclosed.**  The induction
is on the names; what is carried along is that the walk stands at what is taken for a variable. -/
theorem gives_readInitializersFrom
    (hbracket : ∀ k t, Dimension src position declared k → src.tokens[k]? = some t →
      Unclosed src.tokens k → E (.unbalanced t.value t.position))
    (hread : ∀ first last, 0 ≤ first → last < stop → Except.Gives E (fun _ => True) (read first last))
    {names : List String} (htaken : Taken src position declared stop i names) :
    Except.Gives E (fun _ => True) (src.readInitializersFrom read stop i names) := by
  induction names generalizing i with
  | nil => exact .ok trivial
  | cons name others ih =>
    have hbehind := gives_behindBrackets (j := i + 1) (fun k t hpassed ht hvalue =>
      hbracket k t ⟨stop, i, name, others, htaken, hpassed, t, ht, hvalue⟩ ht) src.size
    cases hj : src.behindBrackets src.size ((i + 1 : Nat) : Int) with
    | error fault =>
      rw [readInitializersFrom_error hj]
      exact .error (hbehind.fault hj)
    | ok found =>
      rw [hj] at hbehind
      obtain ⟨k, rfl, hpassed, hmany⟩ : ∃ k : Nat, found = k ∧ Passed src.tokens (i + 1) k ∧
          (Stands src.tokens k "[" → i + 1 + src.size ≤ k) := by
        cases hbehind with
        | ok h => exact h
      -- There are not as many brackets as tokens.
      have hends : ¬ Stands src.tokens k "[" := by
        intro hopen
        have hsize : k < src.size := hopen.lt_size
        have := hmany hopen
        omega
      obtain ⟨hvalue, hnext⟩ := part_within src stop k others.head?
      rw [readInitializersFrom_cons hj]
      refine Except.Gives.bind (P := fun _ => True) ?_ fun value _ => ?_
      · cases hrange : (src.part stop k others.head?).1 with
        | none => exact .ok trivial
        | some range =>
          obtain ⟨hfirst, hlast⟩ := hvalue range hrange
          exact (hread _ _ hfirst hlast).bind fun _ _ => .ok trivial
      · split
        · exact .ok trivial
        · rename_i hstop
          obtain ⟨b, hb⟩ := hnext (Int.not_le.1 hstop)
          rw [hb] at hstop ⊢
          exact (ih (.next htaken hpassed hends hb (Int.not_le.1 hstop))).bind fun _ _ => .ok trivial

/-- Where the values of all variables are read, so are those from each variable on. -/
theorem Taken.exists_values (hspread : Spread src) {names : List String}
    (htaken : Taken src position declared stop i names) {values : List (Option α)}
    (h : src.readInitializers read position declared = .ok values) :
    ∃ found, src.readInitializersFrom read stop i names = .ok found := by
  induction htaken with
  | first hvalue ht hposition hstop hfirst =>
    have hsome : (declared.all fun d => !d.2) ≠ true := by
      obtain ⟨d, hd, htrue⟩ := hvalue
      intro hall
      have := List.all_eq_true.1 hall d hd
      simp [htrue] at this
    rw [readInitializers, if_neg hsome, hposition, indexOf_position hspread ht] at h
    simp only [bind, Except.bind, hstop, hfirst] at h
    exact ⟨values, h⟩
  | next htaken hpassed hbehind hpart hlt ih =>
    obtain ⟨found, hfound⟩ := ih
    have hj := hpassed.behindBrackets_eq hbehind hpassed.sub_le_size
    rw [readInitializersFrom_cons hj, hpart] at hfound
    obtain ⟨value, -, hfound⟩ := Except.bind_eq_ok hfound
    rw [if_neg (Int.not_le.2 hlt)] at hfound
    obtain ⟨others, hothers, -⟩ := Except.bind_eq_ok hfound
    exact ⟨others, hothers⟩

/-! ### Fields -/

theorem le_of_firstDeclaratorFrom {name : String} {angle m r : Int} {n : Nat}
    (h : src.firstDeclaratorFrom name angle m n = some r) : m ≤ r := by
  induction n generalizing angle m with
  | zero => cases h
  | succ n ih =>
    rw [firstDeclaratorFrom] at h
    split at h
    · have := ih h
      omega
    · split at h
      · have := ih h
        omega
      · split at h
        · exact Int.le_of_eq (Option.some.inj h)
        · have := ih h
          omega

/-- **The initial values of a field are found, unless a square bracket is unclosed whose partner is looked
for.** -/
theorem gives_readInitializers {t : Token} (hspread : Spread src) (ht : src.tokens[i]? = some t)
    (hposition : position = some t.position)
    (hbracket : ∀ k t, Dimension src position declared k → src.tokens[k]? = some t →
      Unclosed src.tokens k → E (.unbalanced t.value t.position))
    (hread : ∀ first last : Int, 0 ≤ first → last < src.size →
      Except.Gives E (fun _ => True) (read first last)) :
    Except.Gives E (fun _ => True) (src.readInitializers read position declared) := by
  unfold readInitializers
  split
  · exact .ok trivial
  · rename_i hsome
    rw [hposition, indexOf_position hspread ht]
    obtain ⟨stop, hstop, hlt⟩ := exists_statementEnd (Array.getElem?_eq_some_iff.1 ht).1
    simp only [bind, Except.bind, hstop]
    split
    · exact .ok trivial
    · rename_i first hfirst
      have hle := le_of_firstDeclaratorFrom hfirst
      obtain ⟨n, rfl⟩ := Int.eq_ofNat_of_zero_le (show 0 ≤ first by omega)
      have hvalue : ∃ d ∈ declared, d.2 = true := by simpa using hsome
      exact gives_readInitializersFrom hbracket
        (fun first last hlo hhi => hread first last hlo (by omega))
        (.first hvalue ht hposition hstop hfirst)

/-- **If the initial values of a field are found, the square brackets are closed whose partners are looked
for.** -/
theorem not_unclosed_of_readInitializers (hspread : Spread src) {values : List (Option α)}
    (h : src.readInitializers read position declared = .ok values)
    (hdimension : Dimension src position declared k) : ¬ Unclosed src.tokens k := by
  obtain ⟨stop, i, name, others, htaken, hpassed, hopen⟩ := hdimension
  obtain ⟨found, hfound⟩ := htaken.exists_values hspread h
  have hsize : k < src.size := hopen.lt_size
  cases hj : src.behindBrackets src.size ((i + 1 : Nat) : Int) with
  | error fault =>
    rw [readInitializersFrom_error hj] at hfound
    cases hfound
  | ok j => exact hpassed.not_unclosed hopen (by omega) hj

end SourceDoc.TokenText
