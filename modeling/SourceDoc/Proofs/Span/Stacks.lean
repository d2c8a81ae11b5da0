import SourceDoc.Proofs.Span.Ends

/-!
# Brackets on a stack

A pass over the tokens that keeps the open brackets on a stack, whatever their kinds, pairs each bracket
with its partner.  What one token does to the stack is said once (`openedAt_succ_cases`).  From it follow
where an open bracket was opened and that it was open ever since (`openSince`), and that the height of a
place, for every gauge, is what the open brackets count (`height_eq_load`).  So a search that counts
brackets of one kind finds the same partner as the stack does (`closing_of_partners`).
-/

namespace SourceDoc.TokenText

open SourceDoc.Grammar SourceDoc.Grammar.Parser SourceDoc.Token

variable {src : TokenText} {tokens : Array Token} {start stop i j k : Nat} {stack rest : List Opened}

/-! ### The pass -/

/-- A bracket that is open. -/
structure Opened where
  /-- The index of the bracket. -/
  index : Nat
  /-- The text of the bracket. -/
  opener : String
  deriving DecidableEq, Repr

/-- The brackets that are open behind a token, the innermost first; none, if the token closes a bracket
and this is not the innermost one. -/
def passBracket (i : Nat) (value : String) (stack : List Opened) : Option (List Opened) :=
  if isOpener value then some (⟨i, value⟩ :: stack)
  else if isCloser value then
    match stack with
    | [] => none
    | top :: rest => if (top.opener, value) ∈ brackets then some rest else none
  else some stack

/-- The brackets that are open at a place, of those from `start` on. -/
def openedAt (tokens : Array Token) (start : Nat) : Nat → Option (List Opened)
  | 0 => some []
  | k + 1 =>
    if k < start then some []
    else (openedAt tokens start k).bind fun stack => tokens[k]?.bind fun t => passBracket k t.value stack

/-- The brackets between two places are properly nested. -/
def Balanced (tokens : Array Token) (start stop : Nat) : Prop :=
  start ≤ stop ∧ openedAt tokens start stop = some []

/-- The stack pairs two brackets: the second closes the first, which is the innermost open one there. -/
def Partners (tokens : Array Token) (start i j : Nat) : Prop :=
  ∃ opener closer rest, openedAt tokens start j = some (⟨i, opener⟩ :: rest) ∧
    (opener, closer) ∈ brackets ∧ Stands tokens j closer

theorem openedAt_of_le (h : k ≤ start) : openedAt tokens start k = some [] := by
  cases k with
  | zero => rfl
  | succ k => exact if_pos h

theorem openedAt_succ {t : Token} (hk : start ≤ k) (ht : tokens[k]? = some t) :
    openedAt tokens start (k + 1) = (openedAt tokens start k).bind (passBracket k t.value) := by
  rw [openedAt, if_neg (by omega), ht]
  rfl

/-- **What one token does**: it opens a bracket, or it closes the innermost one, or it is no bracket. -/
theorem openedAt_succ_cases (hk : start ≤ k) (h : openedAt tokens start (k + 1) = some stack) :
    ∃ t before, tokens[k]? = some t ∧ openedAt tokens start k = some before ∧
      ((isOpener t.value = true ∧ stack = ⟨k, t.value⟩ :: before) ∨
        (∃ top, before = top :: stack ∧ (top.opener, t.value) ∈ brackets) ∨
        (isOpener t.value = false ∧ isCloser t.value = false ∧ stack = before)) := by
  rw [openedAt, if_neg (by omega)] at h
  obtain ⟨before, hbefore, h⟩ := Option.bind_eq_some_iff.1 h
  obtain ⟨t, ht, h⟩ := Option.bind_eq_some_iff.1 h
  refine ⟨t, before, ht, hbefore, ?_⟩
  unfold passBracket at h
  cases hopener : isOpener t.value with
  | true =>
    rw [hopener, if_pos rfl] at h
    exact .inl ⟨rfl, (Option.some.inj h).symm⟩
  | false =>
    rw [hopener, if_neg Bool.false_ne_true] at h
    cases hcloser : isCloser t.value with
    | true =>
      rw [hcloser, if_pos rfl] at h
      cases before with
      | nil => cases h
      | cons top rest =>
        dsimp only at h
        split at h
        · rename_i hpair
          exact .inr (.inl ⟨top, by rw [Option.some.inj h], hpair⟩)
        · cases h
    | false =>
      rw [hcloser, if_neg Bool.false_ne_true] at h
      exact .inr (.inr ⟨rfl, rfl, (Option.some.inj h).symm⟩)

/-- A pass that comes to a place has come to those before. -/
theorem exists_openedAt_of_le (h : openedAt tokens start k = some stack) (hle : i ≤ k) :
    ∃ stack, openedAt tokens start i = some stack := by
  induction k generalizing stack with
  | zero => exact ⟨stack, by rwa [Nat.le_zero.1 hle]⟩
  | succ k ih =>
    rcases Nat.eq_or_lt_of_le hle with rfl | hlt
    · exact ⟨stack, h⟩
    rcases Nat.lt_or_ge k start with hbefore | hk
    · exact ⟨[], openedAt_of_le (by omega)⟩
    · obtain ⟨t, before, -, hstack, -⟩ := openedAt_succ_cases hk h
      exact ih hstack (Nat.le_of_lt_succ hlt)

/-! ### Open brackets -/

/-- A bracket was opened over some others, and it has been open up to a place. -/
structure OpenSince (tokens : Array Token) (start k : Nat) (e : Opened) (rest : List Opened) : Prop where
  /-- It was opened in the pass. -/
  start_le : start ≤ e.index
  /-- It was opened before the place. -/
  lt : e.index < k
  /-- It stands where it was opened. -/
  stands : Stands tokens e.index e.opener
  /-- It opens. -/
  opener : isOpener e.opener = true
  /-- The others were open there. -/
  before : openedAt tokens start e.index = some rest
  /-- From then on it is open. -/
  since : ∀ n, e.index < n → n ≤ k → ∃ stack, openedAt tokens start n = some stack ∧ e :: rest <:+ stack

theorem OpenSince.succ {e : Opened} (h : OpenSince tokens start k e rest)
    (hstack : openedAt tokens start (k + 1) = some stack) (he : e :: rest <:+ stack) :
    OpenSince tokens start (k + 1) e rest where
  start_le := h.start_le
  lt := Nat.lt_succ_of_lt h.lt
  stands := h.stands
  opener := h.opener
  before := h.before
  since n hlo hhi := by
    rcases Nat.eq_or_lt_of_le hhi with rfl | hlt
    · exact ⟨stack, hstack, he⟩
    · exact h.since n hlo (Nat.le_of_lt_succ hlt)

/-- **What is on the stack was opened, and has been open since.** -/
theorem openSince {e : Opened} (h : openedAt tokens start k = some stack) (he : e :: rest <:+ stack) :
    OpenSince tokens start k e rest := by
  have hempty : ¬ k ≤ start := by
    intro hle
    rw [openedAt_of_le hle] at h
    obtain rfl := Option.some.inj h
    cases List.suffix_nil.1 he
  induction k generalizing stack with
  | zero => exact absurd (Nat.zero_le _) hempty
  | succ k ih =>
    have hk : start ≤ k := by omega
    have hbelow : ∀ {before : List Opened}, openedAt tokens start k = some before →
        e :: rest <:+ before → OpenSince tokens start (k + 1) e rest := by
      intro before hbefore hsuffix
      refine (ih hbefore hsuffix fun hle => ?_).succ h he
      rw [openedAt_of_le hle] at hbefore
      obtain rfl := Option.some.inj hbefore
      cases List.suffix_nil.1 hsuffix
    obtain ⟨t, before, ht, hstack, ⟨hopener, rfl⟩ | ⟨top, rfl, -⟩ | ⟨-, -, rfl⟩⟩ :=
      openedAt_succ_cases hk h
    · rcases List.suffix_cons_iff.1 he with heq | hsuffix
      · -- The token is the bracket itself.
        obtain ⟨rfl, rfl⟩ := List.cons.inj heq
        refine ⟨hk, Nat.lt_succ_self k, ⟨t, ht, rfl⟩, hopener, hstack, fun n hlo hhi => ?_⟩
        obtain rfl : n = k + 1 := Nat.le_antisymm hhi hlo
        exact ⟨_, h, he⟩
      · exact hbelow hstack hsuffix
    · exact hbelow hstack (he.trans (List.suffix_cons _ _))
    · exact hbelow hstack he

theorem isOpener_of_mem {e : Opened} (h : openedAt tokens start k = some stack) (he : e ∈ stack) :
    isOpener e.opener = true := by
  obtain ⟨front, rest, rfl⟩ := List.append_of_mem he
  exact (openSince h (List.suffix_append _ _)).opener

/-! ### Heights -/

/-- What open brackets count. -/
def load (m : Gauge) (stack : List Opened) : Int :=
  stack.foldr (fun e height => m.weight e.opener + height) 0

theorem load_cons (m : Gauge) (e : Opened) (rest : List Opened) :
    load m (e :: rest) = m.weight e.opener + load m rest := rfl

theorem load_append (m : Gauge) (front rest : List Opened) :
    load m (front ++ rest) = load m front + load m rest := by
  induction front with
  | nil => exact (Int.zero_add _).symm
  | cons e front ih =>
    rw [List.cons_append, load_cons, load_cons, ih, Int.add_assoc]

theorem weight_nonneg {value : String} (m : Gauge) (h : isOpener value = true) : 0 ≤ m.weight value := by
  simp only [isOpener, brackets, List.map_cons, List.map_nil, List.contains_iff_mem, List.mem_cons,
    List.not_mem_nil, or_false] at h
  rcases h with rfl | rfl | rfl
  · exact Int.natCast_nonneg m.round
  · exact Int.natCast_nonneg m.curly
  · exact Int.natCast_nonneg m.square

theorem load_nonneg (m : Gauge) (h : ∀ e ∈ stack, isOpener e.opener = true) : 0 ≤ load m stack := by
  induction stack with
  | nil => exact Int.le_refl 0
  | cons e stack ih =>
    exact Int.add_nonneg (weight_nonneg m (h e List.mem_cons_self))
      (ih fun e he => h e (List.mem_cons_of_mem _ he))

/-- A bracket that closes takes away what its partner counts. -/
theorem weight_partner {opener closer : String} (m : Gauge) (h : (opener, closer) ∈ brackets) :
    m.weight closer = -m.weight opener := by
  simp only [brackets, List.mem_cons, Prod.mk.injEq, List.not_mem_nil, or_false] at h
  rcases h with ⟨rfl, rfl⟩ | ⟨rfl, rfl⟩ | ⟨rfl, rfl⟩
  · rfl
  · rfl
  · rfl

theorem weight_no_bracket {value : String} (m : Gauge) (hopener : isOpener value = false)
    (hcloser : isCloser value = false) : m.weight value = 0 := by
  have hfences : ∀ v ∈ Gauge.fences, isOpener v = false → isCloser v = false → v = ";" := by decide
  by_cases hmem : value ∈ Gauge.fences
  · rw [hfences value hmem hopener hcloser, Gauge.weight_semicolon]
  · exact Gauge.weight_of_notMem hmem

/-- **The height of a place is what the brackets count that are open there.** -/
theorem height_eq_load (m : Gauge) (hk : start ≤ k) (h : openedAt tokens start k = some stack) :
    height m tokens k = height m tokens start + load m stack := by
  obtain ⟨n, rfl⟩ := Nat.exists_eq_add_of_le hk
  clear hk
  induction n generalizing stack with
  | zero =>
    rw [Nat.add_zero] at h ⊢
    rw [openedAt_of_le (Nat.le_refl start)] at h
    obtain rfl := Option.some.inj h
    exact (Int.add_zero _).symm
  | succ n ih =>
    obtain ⟨t, before, ht, hstack, hstep⟩ := openedAt_succ_cases (Nat.le_add_right start n) h
    have hbefore := ih hstack
    rw [← Nat.add_assoc, height_succ ht, hbefore, Int.add_assoc]
    refine congrArg (height m tokens start + ·) ?_
    obtain ⟨-, rfl⟩ | ⟨top, rfl, hpair⟩ | ⟨hopener, hcloser, rfl⟩ := hstep
    · exact Int.add_comm _ _
    · rw [weight_partner m hpair, load_cons]
      omega
    · rw [weight_no_bracket m hopener hcloser, Int.add_zero]

/-! ### Partners -/

/-- An open bracket that is not open at the end of the pass has a partner in between. -/
theorem exists_partners_of_suffix {opener : String} (hbalanced : openedAt tokens start stop = some [])
    (hk : start ≤ k) (hle : k ≤ stop) (h : openedAt tokens start k = some stack)
    (he : ⟨i, opener⟩ :: rest <:+ stack) : ∃ j, k ≤ j ∧ j < stop ∧ Partners tokens start i j := by
  obtain ⟨n, rfl⟩ := Nat.exists_eq_add_of_le hle
  clear hle
  induction n generalizing k stack with
  | zero =>
    rw [Nat.add_zero, h] at hbalanced
    rw [Option.some.inj hbalanced] at he
    cases List.suffix_nil.1 he
  | succ n ih =>
    obtain ⟨next, hnext⟩ := exists_openedAt_of_le hbalanced (show k + 1 ≤ k + (n + 1) by omega)
    rw [show k + (n + 1) = k + 1 + n by omega] at hbalanced
    have hlater : ⟨i, opener⟩ :: rest <:+ next →
        ∃ j, k ≤ j ∧ j < k + (n + 1) ∧ Partners tokens start i j := by
      intro hsuffix
      obtain ⟨j, hlo, hhi, hpartners⟩ := ih (by omega) hnext hsuffix hbalanced
      exact ⟨j, by omega, by omega, hpartners⟩
    obtain ⟨t, before, ht, hstack, hstep⟩ := openedAt_succ_cases hk hnext
    obtain rfl := Option.some.inj (h.symm.trans hstack)
    obtain ⟨-, rfl⟩ | ⟨top, rfl, hpair⟩ | ⟨-, -, rfl⟩ := hstep
    · exact hlater (he.trans (List.suffix_cons _ _))
    · rcases List.suffix_cons_iff.1 he with heq | hsuffix
      · -- The innermost open bracket is closed here.
        obtain ⟨rfl, rfl⟩ := List.cons.inj heq
        exact ⟨k, le_rfl, by omega, opener, t.value, _, h, hpair, t, ht, rfl⟩
      · exact hlater hsuffix
    · exact hlater he

/-- **In balanced tokens every opening bracket has a partner.** -/
theorem exists_partners (hbalanced : Balanced tokens start stop) {opener : String} (hlo : start ≤ i)
    (hhi : i < stop) (hstands : Stands tokens i opener) (hopener : isOpener opener = true) :
    ∃ j, i < j ∧ j < stop ∧ Partners tokens start i j := by
  obtain ⟨before, hbefore⟩ := exists_openedAt_of_le hbalanced.2 hhi.le
  obtain ⟨t, ht, rfl⟩ := hstands
  have hopen : openedAt tokens start (i + 1) = some (⟨i, t.value⟩ :: before) := by
    rw [openedAt_succ hlo ht, hbefore]
    exact if_pos hopener
  exact exists_partners_of_suffix hbalanced.2 (by omega) hhi hopen List.suffix_rfl

/-- **The partner that the stack has is found by counting brackets of its kind.** -/
theorem closing_of_partners (h : Partners src.tokens start i j) : src.closing i = .ok (j : Int) := by
  obtain ⟨opener, closer, rest, hstack, hpair, t, ht, rfl⟩ := h
  obtain ⟨hstart, hlt, hstands, hopener, hbefore, hsince⟩ := openSince hstack List.suffix_rfl
  dsimp only at hstart hlt hstands hopener hbefore hsince
  have hweight : (Gauge.ofOpener opener).weight opener = 1 := by
    rw [weight_ofOpener hpair, if_pos rfl]
  have hi := height_eq_load (.ofOpener opener) hstart hbefore
  have hj := height_eq_load (.ofOpener opener) (by omega) hstack
  refine (closing_of_higher hstands hopener hlt (Array.getElem?_eq_some_iff.1 ht).1
    fun n hlo hhi => ?_).2.2 ?_
  · -- The bracket is open, so it counts.
    obtain ⟨stack, hn, front, rfl⟩ := hsince n hlo hhi
    have hheight := height_eq_load (.ofOpener opener) (by omega) hn
    have hfront : 0 ≤ load (.ofOpener opener) front := load_nonneg _ fun e he =>
      isOpener_of_mem hn (List.mem_append_left _ he)
    rw [load_append, load_cons, hweight] at hheight
    omega
  · rw [height_succ ht, weight_partner _ hpair, hj, hi, load_cons, hweight]
    omega

end SourceDoc.TokenText
