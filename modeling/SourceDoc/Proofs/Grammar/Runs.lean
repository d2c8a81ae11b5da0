import SourceDoc.Grammar.Parser

/-!
# Runs of parsers

What a combinator gives at a place, and what its parts gave, if it gave a value.  Repetition is opened
by the relations `Links` and `Rounds`, which list the steps of a run that ended.  `Ensures` states what
holds behind a run, with a rule for every combinator.
-/

namespace SourceDoc.Grammar

open SourceDoc.Grammar.Parser

variable {α β : Type} {tokens : Array Token}

/-! ### Sequences -/

theorem bind_of_done {p : Parser α} {q : α → Parser β} {c c' : Cursor} {v : α}
    (h : p tokens c = .done v c') : (p >>= q) tokens c = q v tokens c' := by
  show andThen p q tokens c = q v tokens c'
  rw [andThen, h]

theorem bind_of_stopped {p : Parser α} {q : α → Parser β} {c c' : Cursor} {r : Stop}
    (h : p tokens c = .stopped r c') : (p >>= q) tokens c = .stopped r c' := by
  show andThen p q tokens c = .stopped r c'
  rw [andThen, h]

/-- A sequence that gives a value is two parsers that give one. -/
theorem bind_eq_done {p : Parser α} {q : α → Parser β} {c c' : Cursor} {w : β}
    (h : (p >>= q) tokens c = .done w c') :
    ∃ v c₁, p tokens c = .done v c₁ ∧ q v tokens c₁ = .done w c' := by
  cases hp : p tokens c with
  | done v c₁ => exact ⟨v, c₁, rfl, by rwa [bind_of_done hp] at h⟩
  | stopped r c₁ =>
    rw [bind_of_stopped hp] at h
    cases h

/-! ### Looking -/

/-- Whether the tokens from a place on are as asked. -/
def fitsFrom (tokens : Array Token) (i : Nat) : List Pattern → Bool
  | [] => true
  | pattern :: rest => pattern.fits tokens[i]? && fitsFrom tokens (i + 1) rest

theorem seesFrom_eq (ahead : Nat) (patterns : List Pattern) (tokens : Array Token) (c : Cursor) :
    seesFrom ahead patterns tokens c = .done (fitsFrom tokens (c.next + ahead) patterns) c := by
  induction patterns generalizing ahead with
  | nil => rfl
  | cons pattern rest ih =>
    have hlook : look ahead tokens c = .done tokens[c.next + ahead]? c := rfl
    rw [seesFrom, bind_of_done hlook, fitsFrom]
    cases hfits : pattern.fits tokens[c.next + ahead]? with
    | true => exact ih (ahead + 1)
    | false => rfl

theorem sees_eq (patterns : List Pattern) (tokens : Array Token) (c : Cursor) :
    sees patterns tokens c = .done (fitsFrom tokens c.next patterns) c :=
  seesFrom_eq 0 patterns tokens c

/-- A parser that only looks: it gives a value and does not move. -/
def Peeks (p : Parser α) : Prop := ∀ tokens c, ∃ v, p tokens c = .done v c

theorem peeks_sees (patterns : List Pattern) : Peeks (sees patterns) :=
  fun tokens c => ⟨_, sees_eq patterns tokens c⟩

theorem peeks_seesText (value : String) : Peeks (seesText value) := peeks_sees _

theorem peeks_seesClass (cls : TokenClass) : Peeks (seesClass cls) := peeks_sees _

theorem peeks_look (ahead : Nat) : Peeks (look ahead) := fun _ _ => ⟨_, rfl⟩

theorem peeks_here : Peeks here := fun _ _ => ⟨_, rfl⟩

theorem peeks_index : Peeks index := fun _ _ => ⟨_, rfl⟩

theorem Peeks.bind {p : Parser α} {q : α → Parser β} (hp : Peeks p) (hq : ∀ v, Peeks (q v)) :
    Peeks (p >>= q) := by
  intro tokens c
  obtain ⟨v, hv⟩ := hp tokens c
  rw [bind_of_done hv]
  exact hq v tokens c

theorem peeks_pure (v : α) : Peeks (pure v : Parser α) := fun _ _ => ⟨v, rfl⟩

/-- A parser that does not move, whether it gives a value or stops. -/
def Stays (p : Parser α) : Prop :=
  ∀ tokens c, (∃ v, p tokens c = .done v c) ∨ ∃ r, p tokens c = .stopped r c

theorem Peeks.stays {p : Parser α} (hp : Peeks p) : Stays p := fun tokens c => .inl (hp tokens c)

theorem Stays.bind {p : Parser α} {q : α → Parser β} (hp : Stays p) (hq : ∀ v, Stays (q v)) :
    Stays (p >>= q) := by
  intro tokens c
  rcases hp tokens c with ⟨v, hv⟩ | ⟨r, hr⟩
  · rw [bind_of_done hv]
    exact hq v tokens c
  · exact .inr ⟨r, bind_of_stopped hr⟩

theorem Stays.eq_of_done {p : Parser α} (hp : Stays p) {c c' : Cursor} {v : α}
    (h : p tokens c = .done v c') : c' = c := by
  rcases hp tokens c with ⟨v', hv⟩ | ⟨r, hr⟩
  · rw [hv] at h
    exact (Reply.done.inj h).2.symm
  · rw [hr] at h
    cases h

/-- A token with this text stands at a place. -/
def Stands (tokens : Array Token) (i : Nat) (value : String) : Prop :=
  ∃ t, tokens[i]? = some t ∧ t.value = value

theorem Stands.unique {i : Nat} {v w : String} (hv : Stands tokens i v) (hw : Stands tokens i w) :
    v = w := by
  obtain ⟨t, ht, rfl⟩ := hv
  obtain ⟨u, hu, rfl⟩ := hw
  rw [Option.some.inj (ht.symm.trans hu)]

theorem Stands.lt_size {i : Nat} {v : String} (h : Stands tokens i v) : i < tokens.size := by
  obtain ⟨t, ht, -⟩ := h
  exact (Array.getElem?_eq_some_iff.1 ht).1

/-- What was seen stands there. -/
theorem exists_of_fitsFrom_text {value : String} {i : Nat} {rest : List Pattern}
    (h : fitsFrom tokens i (.text value :: rest) = true) :
    Stands tokens i value ∧ fitsFrom tokens (i + 1) rest = true := by
  rw [fitsFrom, Bool.and_eq_true] at h
  refine ⟨?_, h.2⟩
  cases ht : tokens[i]? with
  | none => rw [ht] at h; cases h.1
  | some t =>
    rw [ht] at h
    exact ⟨t, ht, beq_iff_eq.1 h.1⟩

theorem exists_of_fitsFrom_ofClass {cls : TokenClass} {i : Nat} {rest : List Pattern}
    (h : fitsFrom tokens i (.ofClass cls :: rest) = true) :
    (∃ t, tokens[i]? = some t ∧ t.cls = cls) ∧ fitsFrom tokens (i + 1) rest = true := by
  rw [fitsFrom, Bool.and_eq_true] at h
  refine ⟨?_, h.2⟩
  cases ht : tokens[i]? with
  | none => rw [ht] at h; cases h.1
  | some t =>
    rw [ht] at h
    exact ⟨t, rfl, beq_iff_eq.1 h.1⟩

/-! ### Reading tokens -/

theorem advance_of_some {c : Cursor} {t : Token} (h : tokens[c.next]? = some t) :
    advance tokens c = .done t { c with next := c.next + 1 } := by
  rw [advance, h]

theorem advance_of_none {c : Cursor} (h : tokens[c.next]? = none) :
    advance tokens c = .stopped .endOfTokens c := by
  rw [advance, h]

theorem takes_eq (patterns : List Pattern) (tokens : Array Token) (c : Cursor) :
    takes patterns tokens c = if fitsFrom tokens c.next patterns = true then
      .done true { c with next := c.next + patterns.length } else .done false c := by
  rw [takes, bind_of_done (sees_eq patterns tokens c)]
  cases fitsFrom tokens c.next patterns <;> rfl

/-- What an expected token gives: its text, and the place behind it. -/
theorem expect_eq_done {pattern : Pattern} {c c' : Cursor} {v : String}
    (h : expect pattern tokens c = .done v c') :
    ∃ t, tokens[c.next]? = some t ∧ pattern.fits (some t) = true ∧ v = t.value ∧
      c' = { c with next := c.next + 1 } := by
  rw [expect] at h
  cases ht : tokens[c.next]? with
  | none =>
    rw [bind_of_stopped (advance_of_none ht)] at h
    cases h
  | some t =>
    rw [bind_of_done (advance_of_some ht)] at h
    cases hfits : pattern.fits (some t) with
    | true =>
      rw [hfits] at h
      cases h
      exact ⟨t, rfl, hfits, rfl, rfl⟩
    | false =>
      rw [hfits] at h
      cases h

/-- What a read symbol is: the token there. -/
theorem symbol_eq_done {value : String} {c c' : Cursor} {v : Unit}
    (h : symbol value tokens c = .done v c') :
    Stands tokens c.next value ∧ c' = { c with next := c.next + 1 } := by
  obtain ⟨_, c₁, hexpect, h⟩ := bind_eq_done h
  cases h
  obtain ⟨t, ht, hfits, -, rfl⟩ := expect_eq_done hexpect
  exact ⟨⟨t, ht, beq_iff_eq.1 hfits⟩, rfl⟩

/-! ### Repetition -/

/-- The steps of a chain that ended: each finds the value after a given one, the last finds none. -/
inductive Links (step : α → Parser (Option α)) (tokens : Array Token) :
    α → Cursor → List α → Cursor → Prop where
  | last {v : α} {c c' : Cursor} (h : step v tokens c = .done none c') : Links step tokens v c [v] c'
  | next {v w : α} {vs : List α} {c c₁ c' : Cursor} (h : step v tokens c = .done (some w) c₁)
      (hrest : Links step tokens w c₁ vs c') : Links step tokens v c (v :: vs) c'

/-- The rounds of a repetition that ended. -/
inductive Rounds (step : Parser (Option α)) (tokens : Array Token) :
    Cursor → List α → Cursor → Prop where
  | last {c c' : Cursor} (h : step tokens c = .done none c') : Rounds step tokens c [] c'
  | next {v : α} {vs : List α} {c c₁ c' : Cursor} (h : step tokens c = .done (some v) c₁)
      (hrest : Rounds step tokens c₁ vs c') : Rounds step tokens c (v :: vs) c'

theorem links_of_chain {step : α → Parser (Option α)} {first : α} {c c' : Cursor} {vs : List α}
    (h : chain step first tokens c = .done vs c') : Links step tokens first c vs c' := by
  rw [chain] at h
  generalize tokens.size + 1 = rounds at h
  induction rounds generalizing first c vs with
  | zero => cases h
  | succ rounds ih =>
    rw [chainWithin] at h
    obtain ⟨found, c₁, hstep, h⟩ := bind_eq_done h
    cases found with
    | none =>
      cases h
      exact .last hstep
    | some next =>
      obtain ⟨rest, c₂, hrest, h⟩ := bind_eq_done h
      cases h
      exact .next hstep (ih hrest)

/-- A chain whose steps do not depend on the value found is a repetition behind its first value. -/
theorem Links.rounds {step : Parser (Option α)} {first : α} {c c' : Cursor} {vs : List α}
    (h : Links (fun _ => step) tokens first c vs c') :
    ∃ rest, vs = first :: rest ∧ Rounds step tokens c rest c' := by
  induction h with
  | last h => exact ⟨[], rfl, .last h⟩
  | next h _ ih =>
    obtain ⟨rest, rfl, hrest⟩ := ih
    exact ⟨_, rfl, .next h hrest⟩

theorem rounds_of_collect {step : Parser (Option α)} {c c' : Cursor} {vs : List α}
    (h : collect step tokens c = .done vs c') : Rounds step tokens c vs c' := by
  rw [collect] at h
  obtain ⟨found, c₁, hstep, h⟩ := bind_eq_done h
  cases found with
  | none =>
    cases h
    exact .last hstep
  | some first =>
    obtain ⟨rest, rfl, hrest⟩ := (links_of_chain h).rounds
    exact .next hstep hrest

/-! ### What holds behind a run -/

/-- What a parser ensures of the value it gives and of the place where it then stands. -/
def Ensures (tokens : Array Token) (p : Parser α) (c : Cursor) (Q : α → Cursor → Prop) : Prop :=
  ∀ v c', p tokens c = .done v c' → Q v c'

variable {c : Cursor} {Q : α → Cursor → Prop}

theorem Ensures.mono {p : Parser α} {Q' : α → Cursor → Prop} (h : Ensures tokens p c Q)
    (hQ : ∀ v c', Q v c' → Q' v c') : Ensures tokens p c Q' :=
  fun v c' hrun => hQ v c' (h v c' hrun)

theorem ensures_pure {v : α} (h : Q v c) : Ensures tokens (pure v : Parser α) c Q := by
  intro _ _ hrun
  cases hrun
  exact h

theorem ensures_stop (r : Stop) : Ensures tokens (stop r : Parser α) c Q :=
  fun _ _ hrun => nomatch hrun

theorem ensures_refuse (problem : String) : Ensures tokens (refuse problem : Parser α) c Q :=
  fun _ _ hrun => nomatch hrun

theorem Ensures.bind {p : Parser β} {q : β → Parser α}
    (h : ∀ v c', p tokens c = .done v c' → Ensures tokens (q v) c' Q) :
    Ensures tokens (p >>= q) c Q := by
  intro w c' hrun
  obtain ⟨v, c₁, h₁, h₂⟩ := bind_eq_done hrun
  exact h v c₁ h₁ w c' h₂

theorem Ensures.peek {p : Parser β} {q : β → Parser α} (hp : Peeks p)
    (h : ∀ v, p tokens c = .done v c → Ensures tokens (q v) c Q) :
    Ensures tokens (p >>= q) c Q := by
  refine .bind fun v c' hrun => ?_
  obtain rfl := hp.stays.eq_of_done hrun
  exact h v hrun

/-- A choice by what is seen. -/
theorem Ensures.ifPeek {p : Parser Bool} {q r : Parser α} (hp : Peeks p)
    (hq : p tokens c = .done true c → Ensures tokens q c Q)
    (hr : p tokens c = .done false c → Ensures tokens r c Q) :
    Ensures tokens (do if ← p then q else r) c Q := by
  refine .peek hp fun v hv => ?_
  cases v with
  | true => exact hq hv
  | false => exact hr hv

/-- A choice by whether tokens could be taken. -/
theorem Ensures.ifTakes {patterns : List Pattern} {q r : Parser α}
    (hq : fitsFrom tokens c.next patterns = true →
      Ensures tokens q { c with next := c.next + patterns.length } Q)
    (hr : fitsFrom tokens c.next patterns = false → Ensures tokens r c Q) :
    Ensures tokens (do if ← takes patterns then q else r) c Q := by
  refine .bind fun v c' hrun => ?_
  rw [takes_eq] at hrun
  split at hrun
  · cases hrun
    exact hq ‹_›
  · cases hrun
    exact hr (Bool.not_eq_true _ ▸ ‹_›)

/-- A choice by whether a token with this text could be taken. -/
theorem Ensures.ifTakesText {value : String} {q r : Parser α}
    (hq : Stands tokens c.next value → Ensures tokens q { c with next := c.next + 1 } Q)
    (hr : Ensures tokens r c Q) : Ensures tokens (do if ← takesText value then q else r) c Q :=
  .ifTakes (fun hfits => hq (exists_of_fitsFrom_text hfits).1) (fun _ => hr)

/-- One round behind a separator: nothing, or the separator and an item. -/
theorem ensures_next {separator : String} {item : Parser α} :
    Ensures tokens (do if ← takesText separator then return some (← item) else return none) c
      fun found c' => (found = none → c' = c) ∧ ∀ v, found = some v →
        Stands tokens c.next separator ∧ item tokens { c with next := c.next + 1 } = .done v c' := by
  refine .ifTakesText (fun hstands => .bind fun v c' hrun => ensures_pure ⟨nofun, fun w hw => ?_⟩)
    (ensures_pure ⟨fun _ => rfl, nofun⟩)
  obtain rfl := Option.some.inj hw
  exact ⟨hstands, hrun⟩

theorem Ensures.expect {pattern : Pattern} {q : String → Parser α}
    (h : ∀ t, tokens[c.next]? = some t → pattern.fits (some t) = true →
      Ensures tokens (q t.value) { c with next := c.next + 1 } Q) :
    Ensures tokens (do q (← expect pattern)) c Q := by
  refine .bind fun v c' hrun => ?_
  obtain ⟨t, ht, hfits, rfl, rfl⟩ := expect_eq_done hrun
  exact h t ht hfits

theorem Ensures.symbol {value : String} {q : Parser α}
    (h : Stands tokens c.next value → Ensures tokens q { c with next := c.next + 1 } Q) :
    Ensures tokens (do symbol value; q) c Q := by
  refine .bind fun v c' hrun => ?_
  obtain ⟨hstands, rfl⟩ := symbol_eq_done hrun
  exact h hstands

theorem Ensures.measured {p : Parser β} {q : β × Tree.Extent → Parser α}
    (h : ∀ v c', p tokens c = .done v c' → Ensures tokens (q (v, ⟨c.next, c'.next⟩)) c' Q) :
    Ensures tokens (do q (← measured p)) c Q := by
  refine .bind fun measure c' hrun => ?_
  obtain ⟨first, c₁, hfirst, hrun⟩ := bind_eq_done hrun
  obtain ⟨v, c₂, hvalue, hrun⟩ := bind_eq_done hrun
  obtain ⟨stop, c₃, hstop, hrun⟩ := bind_eq_done hrun
  cases hfirst
  cases hstop
  cases hrun
  exact h v _ hvalue

end SourceDoc.Grammar
