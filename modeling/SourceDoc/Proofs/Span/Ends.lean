import SourceDoc.Proofs.Except
import SourceDoc.Proofs.Grammar.Layout
import SourceDoc.Proofs.Span.Partners

/-!
# Where walks over the tokens end

The end of a declaration is found by a walk that counts brackets.  The count is the height of the
place that the walk has come to, above the place where it began, so a walk passes everything that is
higher than its start: it does not stop early, and it stops at the real end just if this is as high as
the start (`statementEnd_spec`, `closing_spec`, `declarationEnd_of_body`).
-/

namespace SourceDoc.TokenText

open SourceDoc.Grammar SourceDoc.Grammar.Parser SourceDoc.Token SourceDoc.Tree

variable {src : TokenText} {tokens : Array Token} {anchor i j last : Nat}

/-! ### Walks that count -/

/-- A walk that counts brackets passes a token, unless its count is zero and the text is one that it
stops at. -/
def Walks {α : Type} (m : Gauge) (stops : String → Prop)
    (walk : Int → Int → List Token → Option α) : Prop :=
  ∀ {depth k : Int} {t : Token} {rest : List Token}, ¬(depth = 0 ∧ stops t.value) →
    walk depth k (t :: rest) = walk (depth + m.weight t.value) (k + 1) rest

/-- **A walk passes what is higher than its start.** -/
theorem Walks.skip {α : Type} {m : Gauge} {stops : String → Prop}
    {walk : Int → Int → List Token → Option α} (hwalk : Walks m stops walk) {base : Int}
    (hle : i ≤ j) (h : ∀ k, i ≤ k → k < j → ∃ t, tokens[k]? = some t ∧
      (stops t.value → height m tokens k ≠ base)) :
    walk (height m tokens i - base) i (tokens.toList.drop i) =
      walk (height m tokens j - base) j (tokens.toList.drop j) := by
  obtain ⟨n, rfl⟩ := Nat.exists_eq_add_of_le hle
  clear hle
  induction n generalizing i with
  | zero => rfl
  | succ n ih =>
    obtain ⟨t, ht, hstop⟩ := h i le_rfl (by omega)
    have hpass : ¬(height m tokens i - base = 0 ∧ stops t.value) := fun hboth =>
      hstop hboth.2 (by omega)
    have hstep := ih (i := i + 1) fun k hlo hhi => h k (by omega) (by omega)
    rw [drop_eq_cons ht, hwalk hpass, show i + (n + 1) = i + 1 + n by omega, ← hstep,
      height_succ ht, Int.natCast_succ,
      show height m tokens i - base + m.weight t.value =
        height m tokens i + m.weight t.value - base by omega]

theorem Walks.skip_of_rises {α : Type} {m : Gauge} {stops : String → Prop}
    {walk : Int → Int → List Token → Option α} (hwalk : Walks m stops walk)
    (hrises : Rises m tokens i j) (hstops : ∀ v, stops v → m.demand v = 1) :
    walk 0 i (tokens.toList.drop i) =
      walk (height m tokens j - height m tokens i) j (tokens.toList.drop j) := by
  rw [← hwalk.skip hrises.le fun k hlo hhi => ?_, Int.sub_self]
  obtain ⟨t, ht, hdemand⟩ := hrises.clear k hlo hhi
  refine ⟨t, ht, fun hstop => ?_⟩
  rw [hstops _ hstop] at hdemand
  dsimp only at hdemand
  omega

/-! ### Semicolons -/

theorem weight_opener {value : String} (h : value ∈ brackets.map Prod.fst) :
    Gauge.brackets.weight value = 1 := by
  have hweight : ∀ v ∈ brackets.map Prod.fst, Gauge.brackets.weight v = 1 := by decide
  exact hweight value h

theorem weight_closer {value : String} (h : value ∈ brackets.map Prod.snd) :
    Gauge.brackets.weight value = -1 := by
  have hweight : ∀ v ∈ brackets.map Prod.snd, Gauge.brackets.weight v = -1 := by decide
  exact hweight value h

theorem weight_other {value : String} (hopen : value ∉ brackets.map Prod.fst)
    (hclose : value ∉ brackets.map Prod.snd) : Gauge.brackets.weight value = 0 := by
  by_cases hmem : value ∈ Gauge.fences
  · have hfences : ∀ v ∈ Gauge.fences, v ∈ brackets.map Prod.fst ∨ v ∈ brackets.map Prod.snd ∨
        Gauge.brackets.weight v = 0 := by decide
    exact ((hfences _ hmem).resolve_left hopen).resolve_left hclose
  · exact Gauge.weight_of_notMem hmem

theorem walks_semicolonFrom : Walks .brackets (· = ";") semicolonFrom := by
  intro depth k t rest hpass
  rw [semicolonFrom, isOpener, isCloser]
  by_cases hopen : t.value ∈ brackets.map Prod.fst
  · rw [if_pos (List.contains_iff_mem.2 hopen), weight_opener hopen]
  rw [if_neg fun h => hopen (List.contains_iff_mem.1 h)]
  by_cases hclose : t.value ∈ brackets.map Prod.snd
  · rw [if_pos (List.contains_iff_mem.2 hclose), weight_closer hclose]
    rfl
  rw [if_neg fun h => hclose (List.contains_iff_mem.1 h), if_neg (by simpa using hpass),
    weight_other hopen hclose, Int.add_zero]

theorem semicolonFrom_stop {k : Int} {t : Token} {rest : List Token} (h : t.value = ";") :
    semicolonFrom 0 k (t :: rest) = some k := by
  rw [semicolonFrom, h]
  rfl

theorem le_of_semicolonFrom {depth k r : Int} {rest : List Token}
    (h : semicolonFrom depth k rest = some r) : k ≤ r := by
  induction rest generalizing depth k with
  | nil => cases h
  | cons t rest ih =>
    by_cases hstop : depth = 0 ∧ t.value = ";"
    · rw [hstop.1, semicolonFrom_stop hstop.2] at h
      exact Int.le_of_eq (Option.some.inj h)
    · rw [walks_semicolonFrom hstop] at h
      have := ih h
      omega

/-- **The end of a statement is found at its semicolon, if that is as high as the start, and behind
it otherwise.** -/
theorem statementEnd_spec (hrises : Rises .brackets src.tokens anchor last)
    (hsemicolon : Stands src.tokens last ";") (hmore : last + 1 < src.size) :
    ∃ stop : Int, src.statementEnd anchor = .ok stop ∧ last ≤ stop ∧
      (stop = last ↔ height .brackets src.tokens last = height .brackets src.tokens anchor) := by
  obtain ⟨t, ht, hvalue⟩ := hsemicolon
  rw [statementEnd, tokensFrom_natCast]
  show ∃ stop : Int, Except.ok ((semicolonFrom 0 anchor _).getD src.last) = Except.ok stop ∧ _
  refine ⟨_, rfl, ?_⟩
  rw [walks_semicolonFrom.skip_of_rises hrises (by rintro _ rfl; rfl), drop_eq_cons ht]
  by_cases hlevel : height .brackets src.tokens last = height .brackets src.tokens anchor
  · rw [hlevel, Int.sub_self, semicolonFrom_stop hvalue]
    exact ⟨Int.le_refl _, iff_of_true rfl rfl⟩
  · rw [walks_semicolonFrom fun h => hlevel (by omega)]
    have hbehind : (last : Int) < (semicolonFrom (height .brackets src.tokens last -
        height .brackets src.tokens anchor + Gauge.brackets.weight t.value) (last + 1)
        (src.tokens.toList.drop (last + 1))).getD src.last := by
      cases hfound : semicolonFrom _ _ _ with
      | some r =>
        have := le_of_semicolonFrom hfound
        rw [Option.getD_some]
        omega
      | none =>
        rw [Option.getD_none, TokenText.last]
        omega
    exact ⟨Int.le_of_lt hbehind, iff_of_false (Int.ne_of_gt hbehind) hlevel⟩

/-! ### Partners of brackets -/

theorem le_of_closingFrom {opener closer : String} {depth : Nat} {k r : Int} {rest : List Token}
    (h : closingFrom opener closer depth k rest = some r) : k ≤ r := by
  induction rest generalizing depth k with
  | nil => cases h
  | cons t rest ih =>
    rw [closingFrom] at h
    split at h
    · have := ih h
      omega
    · split at h
      · split at h
        · exact Int.le_of_eq (Option.some.inj h)
        · have := ih h
          omega
      · have := ih h
        omega

/-- **The partner of a bracket is not found before a place up to which its kind is higher**, and it is
found there just if the kind is as high behind the place as at the bracket. -/
theorem closing_of_higher {opener : String} (hopen : Stands src.tokens i opener)
    (hopener : isOpener opener = true) (hlt : i < last) (hsize : last < src.size)
    (hhigher : ∀ n, i < n → n ≤ last →
      height (.ofOpener opener) src.tokens i < height (.ofOpener opener) src.tokens n) :
    (∀ stop : Int, src.closing i = .ok stop → (last : Int) ≤ stop) ∧
      (src.closing i = .ok (last : Int) ↔
        height (.ofOpener opener) src.tokens (last + 1) = height (.ofOpener opener) src.tokens i) := by
  obtain ⟨t, ht, rfl⟩ := hopen
  rcases closing_cases ht hopener with ⟨-, j, hpartner, hfound⟩ | ⟨hunclosed, hfault⟩
  · have hafter := hpartner.le
    have hlevel := hpartner.level
    have hbehind : last ≤ j := by
      by_contra hbefore
      have := hhigher (j + 1) (by omega) (by omega)
      omega
    rw [hfound]
    refine ⟨fun stop h => ?_, fun h => ?_, fun h => ?_⟩
    · rw [← Except.ok.inj h]
      exact Int.ofNat_le.2 hbehind
    · obtain rfl : j = last := Int.ofNat_inj.1 (Except.ok.inj h)
      exact hlevel
    · have hend : ¬ last < j := by
        intro hmore
        have := hpartner.higher (last + 1) (by omega) hmore
        omega
      rw [show j = last by omega]
  · rw [hfault]
    refine ⟨nofun, iff_of_false nofun fun hlevel => ?_⟩
    obtain ⟨u, hu, -, hhigh⟩ := hunclosed
    obtain rfl := Option.some.inj (ht.symm.trans hu)
    have := hhigh (last + 1) (by omega) hsize
    omega

/-- **The partner of the brace that opens a body is found at the end of the body, if that is as high
as the start, and not before it otherwise.** -/
theorem closing_spec {extent : Extent} (hbraced : Braced src.tokens extent) :
    (∀ stop : Int, src.closing extent.first = .ok stop → (extent.stop : Int) - 1 ≤ stop) ∧
      (src.closing extent.first = .ok ((extent.stop : Int) - 1) ↔
        height .braces src.tokens extent.stop = height .braces src.tokens extent.first) := by
  obtain ⟨last, hstop, ⟨u, hu, -⟩, hrises⟩ := hbraced.closer
  have hle := hrises.le
  rw [hstop, show ((last + 1 : Nat) : Int) - 1 = last by omega]
  -- The body is higher than its brace throughout.
  exact closing_of_higher hbraced.opener (by decide) (by omega) (Array.getElem?_eq_some_iff.1 hu).1
    fun n hlo hhi => hbraced.lt_height hlo (by omega)

theorem le_of_closing {k stop : Int} (h : src.closing k = .ok stop) : k ≤ stop := by
  rw [closing] at h
  obtain ⟨t, -, h⟩ := Except.bind_eq_ok h
  split at h
  · cases h
  · obtain ⟨rest, -, h⟩ := Except.bind_eq_ok h
    split at h
    · rename_i hfound
      rw [← Except.ok.inj h]
      exact le_of_closingFrom hfound
    · cases h

/-! ### Bodies and ends -/

theorem walks_bodyOrEndFrom :
    Walks .heading (fun v => v = openBrace ∨ v = ";") bodyOrEndFrom := by
  intro depth k t rest hpass
  rw [bodyOrEndFrom]
  by_cases hopen : t.value = "(" ∨ t.value = "["
  · have hweight : Gauge.heading.weight t.value = 1 := by
      rcases hopen with h | h <;> rw [h] <;> rfl
    rw [if_pos (by simpa using hopen), hweight]
  rw [if_neg (by simpa using hopen)]
  by_cases hclose : t.value = ")" ∨ t.value = "]"
  · have hweight : Gauge.heading.weight t.value = -1 := by
      rcases hclose with h | h <;> rw [h] <;> rfl
    rw [if_pos (by simpa using hclose), hweight]
    rfl
  have hweight : Gauge.heading.weight t.value = 0 := by
    rw [not_or] at hopen hclose
    rw [Gauge.weight, if_neg hopen.1, if_neg hclose.1, if_neg hopen.2, if_neg hclose.2]
    split
    · rfl
    · split <;> rfl
  rw [if_neg (by simpa using hclose), if_neg, if_neg, hweight, Int.add_zero]
  · rw [Bool.and_eq_true, decide_eq_true_eq, decide_eq_true_eq]
    exact fun h => hpass ⟨h.1, .inr h.2⟩
  · rw [Bool.and_eq_true, decide_eq_true_eq, decide_eq_true_eq]
    exact fun h => hpass ⟨h.1, .inl h.2⟩

theorem demand_heading : ∀ v, v = openBrace ∨ v = ";" → Gauge.heading.demand v = 1 := by
  rintro v (rfl | rfl) <;> rfl

theorem bodyOrEndFrom_openBrace {k : Int} {t : Token} {rest : List Token}
    (h : t.value = openBrace) : bodyOrEndFrom 0 k (t :: rest) = some (k, true) := by
  rw [bodyOrEndFrom, h]
  rfl

theorem bodyOrEndFrom_semicolon {k : Int} {t : Token} {rest : List Token}
    (h : t.value = ";") : bodyOrEndFrom 0 k (t :: rest) = some (k, false) := by
  rw [bodyOrEndFrom, h]
  rfl

theorem le_of_bodyOrEndFrom {depth k r : Int} {brace : Bool} {rest : List Token}
    (h : bodyOrEndFrom depth k rest = some (r, brace)) : k ≤ r := by
  induction rest generalizing depth k with
  | nil => cases h
  | cons t rest ih =>
    by_cases hstop : depth = 0 ∧ (t.value = openBrace ∨ t.value = ";")
    · obtain ⟨rfl, hvalue | hvalue⟩ := hstop
      · rw [bodyOrEndFrom_openBrace hvalue] at h
        cases h
        exact Int.le_refl _
      · rw [bodyOrEndFrom_semicolon hvalue] at h
        cases h
        exact Int.le_refl _
    · rw [walks_bodyOrEndFrom hstop] at h
      have := ih h
      omega

/-- A walk that has come to a place ends there or behind it. -/
theorem le_of_declarationEnd {depth : Int} (hmore : j < src.size)
    (hwalk : bodyOrEndFrom 0 anchor (src.tokens.toList.drop anchor) =
      bodyOrEndFrom depth j (src.tokens.toList.drop j)) {stop : Int}
    (h : src.declarationEnd anchor = .ok stop) : (j : Int) ≤ stop := by
  rw [declarationEnd, tokensFrom_natCast] at h
  simp only [bind, Except.bind, hwalk] at h
  split at h
  · rw [← Except.ok.inj h, TokenText.last]
    omega
  · rename_i hfound
    exact Int.le_trans (le_of_bodyOrEndFrom hfound) (le_of_closing h)
  · rename_i hfound
    rw [← Except.ok.inj h]
    exact le_of_bodyOrEndFrom hfound

/-- The semicolon of a declaration without a body ends it, if it is as high as the start. -/
theorem declarationEnd_eq_semicolon (hhead : Rises .heading src.tokens anchor last)
    (hsemicolon : Stands src.tokens last ";")
    (hlevel : height .heading src.tokens last = height .heading src.tokens anchor) :
    src.declarationEnd anchor = .ok (last : Int) := by
  obtain ⟨t, ht, hvalue⟩ := hsemicolon
  have hwalk := walks_bodyOrEndFrom.skip_of_rises hhead demand_heading
  rw [hlevel, Int.sub_self, drop_eq_cons ht, bodyOrEndFrom_semicolon hvalue] at hwalk
  rw [declarationEnd, tokensFrom_natCast]
  simp only [bind, Except.bind, hwalk]
  rfl

/-- The partner of the brace behind the heading ends a declaration, if the brace is as high as the
start. -/
theorem declarationEnd_eq_closing (hhead : Rises .heading src.tokens anchor i)
    (hopen : Stands src.tokens i openBrace)
    (hlevel : height .heading src.tokens i = height .heading src.tokens anchor) :
    src.declarationEnd anchor = src.closing i := by
  obtain ⟨t, ht, hvalue⟩ := hopen
  have hwalk := walks_bodyOrEndFrom.skip_of_rises hhead demand_heading
  rw [hlevel, Int.sub_self, drop_eq_cons ht, bodyOrEndFrom_openBrace hvalue] at hwalk
  rw [declarationEnd, tokensFrom_natCast]
  simp only [bind, Except.bind, hwalk]

/-- A walk that is higher than its start passes what does not leave the bracket that it is in. -/
theorem bodyOrEndFrom_of_remains (hhead : Rises .heading src.tokens anchor i)
    (hopen : height .heading src.tokens i ≠ height .heading src.tokens anchor)
    (hremains : Remains .heading src.tokens i j) :
    bodyOrEndFrom 0 anchor (src.tokens.toList.drop anchor) =
      bodyOrEndFrom (height .heading src.tokens j - height .heading src.tokens anchor) j
        (src.tokens.toList.drop j) := by
  refine (walks_bodyOrEndFrom.skip_of_rises hhead demand_heading).trans ?_
  refine walks_bodyOrEndFrom.skip hremains.le fun k hlo hhi => ?_
  obtain ⟨t, ht, hdemand⟩ := hremains.clear k hlo hhi
  refine ⟨t, ht, fun hstops => ?_⟩
  have habove := hhead.above
  rw [demand_heading _ hstops] at hdemand
  dsimp only at hdemand
  omega

/-- **The end of a declaration without a body is found at its semicolon, if that is as high as the
start, and behind it otherwise.** -/
theorem declarationEnd_of_semicolon (hhead : Rises .heading src.tokens anchor last)
    (hsemicolon : Stands src.tokens last ";") (hmore : last + 1 < src.size) :
    (∀ stop : Int, src.declarationEnd anchor = .ok stop → last ≤ stop) ∧
      (src.declarationEnd anchor = .ok (last : Int) ↔
        height .heading src.tokens last = height .heading src.tokens anchor) := by
  have hwalk := walks_bodyOrEndFrom.skip_of_rises hhead demand_heading
  refine ⟨fun stop h => le_of_declarationEnd (by omega) hwalk h, ?_⟩
  refine ⟨fun h => ?_, declarationEnd_eq_semicolon hhead hsemicolon⟩
  -- A semicolon that is higher is passed, and whatever is found stands behind it.
  by_contra hlevel
  obtain ⟨t, ht, -⟩ := hsemicolon
  rw [drop_eq_cons ht, walks_bodyOrEndFrom fun h => hlevel (by omega)] at hwalk
  have := le_of_declarationEnd (j := last + 1) hmore hwalk h
  omega

/-- **The end of a declaration with a body is found at the end of the body, if its heading and its
body both end as high as they begin, and behind it otherwise.** -/
theorem declarationEnd_of_body {extent : Extent} (hhead : Rises .heading src.tokens anchor extent.first)
    (hbraced : Braced src.tokens extent)
    (hmore : height .heading src.tokens extent.first = height .heading src.tokens anchor ∨
      extent.stop < src.size) :
    (∀ stop : Int, src.declarationEnd anchor = .ok stop → (extent.stop : Int) - 1 ≤ stop) ∧
      (src.declarationEnd anchor = .ok ((extent.stop : Int) - 1) ↔
        height .heading src.tokens extent.first = height .heading src.tokens anchor ∧
        height .braces src.tokens extent.stop = height .braces src.tokens extent.first) := by
  by_cases hlevel : height .heading src.tokens extent.first = height .heading src.tokens anchor
  · rw [declarationEnd_eq_closing hhead hbraced.opener hlevel, and_iff_right hlevel]
    exact closing_spec hbraced
  · -- The walk passes the whole body, which is higher than its start.
    have hwalk := bodyOrEndFrom_of_remains hhead hlevel hbraced.remains
    have hbehind : ∀ stop : Int, src.declarationEnd anchor = .ok stop → (extent.stop : Int) ≤ stop :=
      fun stop h => le_of_declarationEnd (hmore.resolve_left hlevel) hwalk h
    refine ⟨fun stop h => ?_, iff_of_false (fun h => ?_) (fun h => hlevel h.1)⟩
    · have := hbehind stop h
      omega
    · have := hbehind _ h
      omega

/-! ### Starts -/

/-- A walk back over modifiers ends where they begin. -/
theorem backOverModifiers_eq (hle : i ≤ j) (hsize : j < src.size)
    (hmodifiers : ∀ k, i ≤ k → k < j → ∃ t, src.tokens[k]? = some t ∧ t.cls = .modifier)
    (hsettled : Settled src.tokens i) : src.backOverModifiers j = .ok i := by
  induction j with
  | zero =>
    obtain rfl : i = 0 := by omega
    rfl
  | succ j ih =>
    obtain ⟨t, ht⟩ : ∃ t, src.tokens[j]? = some t :=
      ⟨_, Array.getElem?_eq_getElem (Nat.lt_of_succ_lt hsize)⟩
    rw [backOverModifiers, token_natCast ht]
    rcases Nat.eq_or_lt_of_le hle with rfl | hlt
    · exact if_neg (hsettled j _ rfl ht)
    · obtain ⟨u, hu, hcls⟩ := hmodifiers j (by omega) (by omega)
      obtain rfl := Option.some.inj (ht.symm.trans hu)
      exact (if_pos hcls).trans (ih (by omega) (by omega) fun k hlo hhi => hmodifiers k hlo (by omega))

end SourceDoc.TokenText
