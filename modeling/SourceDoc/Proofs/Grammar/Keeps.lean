import SourceDoc.Grammar.Rule
import SourceDoc.Proofs.Grammar.Heights
import SourceDoc.Proofs.Grammar.Runs

/-!
# What parsers keep

A parser that begins above the base of a ground reads a range that is clear on that ground, and ends
a known height above the base.  An attempt that fails may leave brackets open, because reading goes
back no further than the mark; it never leaves more brackets closed than opened, and that is all that
heights tell from below.

`Keeps` says so of a parser at a place, and this module has a rule for every combinator.  `Kept` says
so of all rules of the grammar.
-/

namespace SourceDoc.Grammar

open SourceDoc.Grammar.Parser SourceDoc.Token

/-! ### Marks -/

/-- The token before a place is no modifier: what begins there begins with the token there. -/
def Settled (tokens : Array Token) (i : Nat) : Prop :=
  ∀ j t, i = j + 1 → tokens[j]? = some t → t.cls ≠ .modifier

/-- Behind a mark every place is settled. -/
theorem Stands.settled {tokens : Array Token} {i : Nat} {value : String}
    (h : Stands tokens i value) (hproper : ∀ t ∈ tokens, Proper t)
    (hvalue : value ∈ marks.map String.singleton) : Settled tokens (i + 1) := by
  obtain ⟨t, ht, rfl⟩ := h
  intro j u hj hu
  obtain rfl : i = j := by omega
  obtain rfl : t = u := Option.some.inj (ht.symm.trans hu)
  rw [(hproper t (Array.mem_of_getElem? ht)).mark hvalue]
  decide

/-- No declaration of a unit begins at a place: behind modifiers stands a token that begins none. -/
def Misfit (tokens : Array Token) (i : Nat) : Prop :=
  ∃ k t, i ≤ k ∧ (∀ j, i ≤ j → j < k → ∃ u, tokens[j]? = some u ∧ u.cls = .modifier) ∧
    tokens[k]? = some t ∧ t.cls ≠ .modifier ∧ t.cls ≠ .atSign ∧
    t.value ∉ ["class", "enum", "interface", "import", ";"]

/-- What can be said of a place that reading goes back to. -/
def Resumable (tokens : Array Token) (i : Nat) : Prop := Settled tokens i ∨ Misfit tokens i

/-! ### Parsers at a place -/

variable {α β : Type} {tokens : Array Token} {g : Ground} {a b : Nat}

/-- A parser has come from one place to another. -/
structure Passed (tokens : Array Token) (g : Ground) (c c' : Cursor) : Prop where
  /-- Nothing is given back. -/
  le : c.next ≤ c'.next
  /-- What was read is clear. -/
  clear : g.Clear tokens c.next c'.next
  /-- The mark has not moved, or has moved to what was read. -/
  mark : c'.mark = c.mark ∨ (c.next ≤ c'.mark ∧ c'.mark ≤ c'.next ∧
    g.Above tokens g.floor c'.mark ∧ Resumable tokens c'.mark)

/-- A parser has stopped: its mark has not moved, or to a place that can be gone back to. -/
def Halted (tokens : Array Token) (g : Ground) (c c' : Cursor) : Prop :=
  c'.mark = c.mark ∨ (c.next ≤ c'.mark ∧ g.Clear tokens c.next c'.mark ∧
    g.Above tokens g.floor c'.mark ∧ Resumable tokens c'.mark)

/-- A parser at a place: from one height to another, by a clear range. -/
structure Keeps (tokens : Array Token) (g : Ground) (a : Nat) (b : α → Nat) (p : Parser α)
    (c : Cursor) : Prop where
  /-- What holds if the parser gives a value. -/
  done : ∀ {v c'}, g.Above tokens a c.next → p tokens c = .done v c' →
    Passed tokens g c c' ∧ g.Above tokens (b v) c'.next
  /-- What holds if the parser stops. -/
  stopped : ∀ {r c'}, g.Above tokens a c.next → p tokens c = .stopped r c' →
    Halted tokens g c c'

theorem Passed.refl (c : Cursor) : Passed tokens g c c := ⟨le_rfl, .refl _, .inl rfl⟩

theorem Passed.trans {c₁ c₂ c₃ : Cursor} (h₁ : Passed tokens g c₁ c₂) (h₂ : Passed tokens g c₂ c₃) :
    Passed tokens g c₁ c₃ := by
  refine ⟨h₁.le.trans h₂.le, h₁.clear.trans h₂.clear, ?_⟩
  rcases h₂.mark with hmark | ⟨hlo, hhi, habove, hres⟩
  · rw [hmark]
    rcases h₁.mark with hmark | ⟨hlo, hhi, hrest⟩
    · exact .inl hmark
    · exact .inr ⟨hlo, hhi.trans h₂.le, hrest⟩
  · exact .inr ⟨h₁.le.trans hlo, hhi, habove, hres⟩

theorem Passed.halted {c₁ c₂ c₃ : Cursor} (h₁ : Passed tokens g c₁ c₂) (h₂ : Halted tokens g c₂ c₃) :
    Halted tokens g c₁ c₃ := by
  rcases h₂ with hmark | ⟨hlo, hclear, hrest⟩
  · rcases h₁.mark with hmark' | ⟨hlo, hhi, hrest⟩
    · exact .inl (hmark.trans hmark')
    · refine .inr ⟨hmark ▸ hlo, ?_, hmark ▸ hrest⟩
      rw [hmark]
      exact h₁.clear.mono le_rfl hhi
  · exact .inr ⟨h₁.le.trans hlo, h₁.clear.trans hclear, hrest⟩

/-- What a parser reads from its own height on. -/
theorem Keeps.rises {m : Gauge} {p : Parser α} {c c' : Cursor} {v : α}
    (h : Keeps tokens ⟨m, height m tokens c.next, 0⟩ 0 (fun _ => 0) p c)
    (hrun : p tokens c = .done v c') : Rises m tokens c.next c'.next := by
  have hstart : (⟨m, height m tokens c.next, 0⟩ : Ground).Above tokens 0 c.next :=
    Int.le_of_eq (Int.add_zero _)
  obtain ⟨hpassed, habove⟩ := h.done hstart hrun
  exact ⟨hpassed.le, hpassed.clear, Int.le_trans (Int.le_of_eq (Int.add_zero _).symm) habove⟩

/-- What a parser reads within a bracket. -/
theorem Keeps.remains {m : Gauge} {p : Parser α} {c c' : Cursor} {v : α}
    (h : Keeps tokens ⟨m, height m tokens c.next - 1, 0⟩ 1 (fun _ => 1) p c)
    (hrun : p tokens c = .done v c') : Remains m tokens c.next c'.next := by
  have hstart : (⟨m, height m tokens c.next - 1, 0⟩ : Ground).Above tokens 1 c.next := by
    unfold Ground.Above
    dsimp only
    omega
  obtain ⟨hpassed, habove⟩ := h.done hstart hrun
  unfold Ground.Above at habove
  exact ⟨hpassed.le, hpassed.clear, by dsimp only at habove; omega⟩

/-! ### Rules for sequences and choices -/

theorem keeps_pure {e : α → Nat} {c : Cursor} (v : α) (h : e v ≤ a) :
    Keeps tokens g a e (pure v : Parser α) c where
  done := fun habove hdone => by
    cases hdone
    exact ⟨.refl _, habove.mono h⟩
  stopped := fun _ h => nomatch h

/-- What stops without moving the mark keeps everything. -/
theorem keeps_of_stopped {e : α → Nat} {p : Parser α} {c c' : Cursor} {r : Stop}
    (h : p tokens c = .stopped r c') (hmark : c'.mark = c.mark) : Keeps tokens g a e p c where
  done := fun _ hdone => by
    rw [h] at hdone
    cases hdone
  stopped := fun _ hstopped => by
    rw [h] at hstopped
    cases hstopped
    exact .inl hmark

theorem keeps_stop {e : α → Nat} {c : Cursor} (r : Stop) :
    Keeps tokens g a e (stop r : Parser α) c :=
  keeps_of_stopped rfl rfl

theorem keeps_refuse {e : α → Nat} {c : Cursor} (problem : String) :
    Keeps tokens g a e (refuse problem : Parser α) c :=
  keeps_of_stopped rfl rfl

/-- What the first parser of a sequence gives decides what the second has to keep. -/
theorem Keeps.bindWith {d : α → Nat} {e : β → Nat} {p : Parser α} {q : α → Parser β} {c : Cursor}
    (hp : Keeps tokens g a d p c)
    (hq : ∀ v c', p tokens c = .done v c' → Keeps tokens g (d v) e (q v) c') :
    Keeps tokens g a e (p >>= q) c where
  done := fun habove h => by
    obtain ⟨v, c₁, h₁, h₂⟩ := bind_eq_done h
    obtain ⟨hpassed, habove₁⟩ := hp.done habove h₁
    obtain ⟨hpassed', habove'⟩ := (hq v c₁ h₁).done habove₁ h₂
    exact ⟨hpassed.trans hpassed', habove'⟩
  stopped := fun habove h => by
    cases hrun : p tokens c with
    | done v c₁ =>
      rw [bind_of_done hrun] at h
      obtain ⟨hpassed, habove₁⟩ := hp.done habove hrun
      exact hpassed.halted ((hq v c₁ hrun).stopped habove₁ h)
    | stopped r c₁ =>
      rw [bind_of_stopped hrun] at h
      cases h
      exact hp.stopped habove hrun

theorem Keeps.bind {e : β → Nat} {p : Parser α} {q : α → Parser β} {c : Cursor}
    (hp : Keeps tokens g a (fun _ => b) p c)
    (hq : ∀ v c', p tokens c = .done v c' → Keeps tokens g b e (q v) c') :
    Keeps tokens g a e (p >>= q) c :=
  hp.bindWith hq

/-- The height at the start may be used to show what a parser keeps. -/
theorem Keeps.of_above {e : α → Nat} {p : Parser α} {c : Cursor}
    (h : g.Above tokens a c.next → Keeps tokens g a e p c) : Keeps tokens g a e p c :=
  ⟨fun habove => (h habove).done habove, fun habove => (h habove).stopped habove⟩

theorem Keeps.map {p : Parser α} {f : α → β} {c : Cursor}
    (hp : Keeps tokens g a (fun _ => b) p c) : Keeps tokens g a (fun _ => b) (f <$> p) c :=
  hp.bind fun v _ _ => show Keeps tokens g b (fun _ => b) (pure (f v)) _ from keeps_pure _ le_rfl

theorem Stays.keeps {p : Parser α} (hp : Stays p) (c : Cursor) :
    Keeps tokens g a (fun _ => a) p c := by
  constructor
  · intro v c' habove h
    obtain rfl := hp.eq_of_done h
    exact ⟨.refl _, habove⟩
  · intro r c' _ h
    rcases hp tokens c with ⟨v, hv⟩ | ⟨r', hr⟩
    · rw [hv] at h
      cases h
    · rw [hr] at h
      cases h
      exact .inl rfl

theorem Keeps.peek {e : β → Nat} {p : Parser α} {q : α → Parser β} {c : Cursor} (hp : Peeks p)
    (hq : ∀ v, p tokens c = .done v c → Keeps tokens g a e (q v) c) :
    Keeps tokens g a e (p >>= q) c := by
  refine (hp.stays.keeps c).bind fun v c' h => ?_
  obtain rfl := hp.stays.eq_of_done h
  exact hq v h

theorem Keeps.ite {e : α → Nat} {p : Prop} [Decidable p] {q r : Parser α} {c : Cursor}
    (hq : p → Keeps tokens g a e q c) (hr : ¬p → Keeps tokens g a e r c) :
    Keeps tokens g a e (if p then q else r) c := by
  by_cases h : p
  · rw [if_pos h]
    exact hq h
  · rw [if_neg h]
    exact hr h

/-- A choice by what is seen. -/
theorem Keeps.ifPeek {e : β → Nat} {p : Parser Bool} {q r : Parser β} {c : Cursor} (hp : Peeks p)
    (hq : p tokens c = .done true c → Keeps tokens g a e q c) (hr : Keeps tokens g a e r c) :
    Keeps tokens g a e (do if ← p then q else r) c :=
  Keeps.peek hp fun v hv => by
    cases v with
    | true => exact hq hv
    | false => exact hr

theorem Keeps.ifNotPeek {e : β → Nat} {p : Parser Bool} {q r : Parser β} {c : Cursor} (hp : Peeks p)
    (hq : Keeps tokens g a e q c) (hr : Keeps tokens g a e r c) :
    Keeps tokens g a e (do if !(← p) then q else r) c :=
  Keeps.peek hp fun v _ => by
    cases v with
    | true => exact hr
    | false => exact hq

theorem Keeps.measured {p : Parser α} {c : Cursor} (hp : Keeps tokens g a (fun _ => b) p c) :
    Keeps tokens g a (fun _ => b) (measured p) c :=
  Keeps.peek peeks_index fun _ _ => hp.bind fun _ _ _ =>
    Keeps.peek peeks_index fun _ _ => keeps_pure _ le_rfl

/-! ### Rules for tokens -/

/-- Tokens that are as asked lead from one height to another, by a clear range. -/
def Walk (tokens : Array Token) (g : Ground) (patterns : List Pattern) (a b : Nat) : Prop :=
  ∀ i, g.Above tokens a i → fitsFrom tokens i patterns = true →
    g.Clear tokens i (i + patterns.length) ∧ g.Above tokens b (i + patterns.length)

theorem Walk.nil : Walk tokens g [] a a := fun i ha _ => ⟨.refl i, ha⟩

theorem Walk.cons {pattern : Pattern} {rest : List Pattern} {d : Nat}
    (hfirst : ∀ t ∈ tokens, pattern.fits (some t) = true → g.Step t.value a b)
    (hrest : Walk tokens g rest b d) : Walk tokens g (pattern :: rest) a d := by
  intro i habove hfits
  rw [fitsFrom, Bool.and_eq_true] at hfits
  cases ht : tokens[i]? with
  | none =>
    rw [ht] at hfits
    cases pattern <;> cases hfits.1
  | some t =>
    rw [ht] at hfits
    obtain ⟨hclear, habove'⟩ := (hfirst t (Array.mem_of_getElem? ht) hfits.1).clear habove ht
    obtain ⟨hclear', habove''⟩ := hrest (i + 1) habove' hfits.2
    rw [List.length_cons, Nat.add_comm rest.length, ← Nat.add_assoc]
    exact ⟨hclear.trans hclear', habove''⟩

theorem Walk.text {value : String} {rest : List Pattern} {d : Nat} (hstep : g.Step value a b)
    (hrest : Walk tokens g rest b d) : Walk tokens g (.text value :: rest) a d :=
  .cons (fun _ _ hfits => by rwa [beq_iff_eq.1 hfits]) hrest

/-- A text that is no fence is read without climbing. -/
theorem Walk.word {value : String} {rest : List Pattern} {d : Nat}
    (hvalue : value ∉ Gauge.fences) (hrest : Walk tokens g rest a d) :
    Walk tokens g (.text value :: rest) a d :=
  .text (Ground.step_of_notMem hvalue a) hrest

/-- Only separators are fences. -/
theorem Walk.ofClass {cls : TokenClass} {rest : List Pattern} {d : Nat}
    (hproper : ∀ t ∈ tokens, Proper t) (hcls : cls ≠ .separator)
    (hrest : Walk tokens g rest a d) : Walk tokens g (.ofClass cls :: rest) a d := by
  refine .cons (fun t hmem hfits => ?_) hrest
  refine Ground.step_of_notMem (value_notMem_fences (hproper t hmem) ?_) a
  rwa [beq_iff_eq.1 hfits]

theorem keeps_advance {c : Cursor} (h : ∀ t, tokens[c.next]? = some t → g.Step t.value a b) :
    Keeps tokens g a (fun _ => b) advance c := by
  cases ht : tokens[c.next]? with
  | none => exact keeps_of_stopped (advance_of_none ht) rfl
  | some t =>
    have hrun := advance_of_some ht
    constructor
    · intro v c' habove hdone
      rw [hrun] at hdone
      cases hdone
      obtain ⟨hclear, habove'⟩ := (h t ht).clear habove ht
      exact ⟨⟨Nat.le_succ _, hclear, .inl rfl⟩, habove'⟩
    · intro r c' _ hstopped
      rw [hrun] at hstopped
      cases hstopped

theorem keeps_expect {pattern : Pattern} {c : Cursor} (h : Walk tokens g [pattern] a b) :
    Keeps tokens g a (fun _ => b) (expect pattern) c where
  done := fun habove hdone => by
    obtain ⟨t, ht, hfits, -, rfl⟩ := expect_eq_done hdone
    have hall : fitsFrom tokens c.next [pattern] = true := by
      rw [fitsFrom, fitsFrom, ht, hfits, Bool.and_true]
    obtain ⟨hclear, habove'⟩ := h c.next habove hall
    exact ⟨⟨Nat.le_succ _, hclear, .inl rfl⟩, habove'⟩
  stopped := fun _ hstopped => by
    -- The token is read even where it is not as asked, and the mark does not move.
    rw [expect] at hstopped
    cases ht : tokens[c.next]? with
    | none =>
      rw [bind_of_stopped (advance_of_none ht)] at hstopped
      cases hstopped
      exact .inl rfl
    | some t =>
      rw [bind_of_done (advance_of_some ht)] at hstopped
      split at hstopped
      · cases hstopped
      · cases hstopped
        exact .inl rfl

theorem keeps_symbol {value : String} {c : Cursor} (h : g.Step value a b) :
    Keeps tokens g a (fun _ => b) (symbol value) c :=
  (keeps_expect (.text h .nil)).bind fun _ _ _ => keeps_pure _ le_rfl

/-- A text that is no fence is read without climbing. -/
theorem keeps_word {value : String} {c : Cursor} (h : value ∉ Gauge.fences) :
    Keeps tokens g a (fun _ => a) (symbol value) c :=
  keeps_symbol (Ground.step_of_notMem h a)

theorem keeps_takes {patterns : List Pattern} {c : Cursor} (hwalk : Walk tokens g patterns a b) :
    Keeps tokens g a (fun taken => bif taken then b else a) (takes patterns) c where
  done := fun habove h => by
    rw [takes_eq] at h
    split at h
    · rename_i hfits
      cases h
      obtain ⟨hclear, habove'⟩ := hwalk c.next habove hfits
      exact ⟨⟨Nat.le_add_right _ _, hclear, .inl rfl⟩, habove'⟩
    · cases h
      exact ⟨.refl _, habove⟩
  stopped := fun _ h => by
    rw [takes_eq] at h
    split at h <;> cases h

/-- A choice by whether tokens could be taken. -/
theorem Keeps.ifTakes {e : β → Nat} {patterns : List Pattern} {q r : Parser β} {c : Cursor}
    (hwalk : Walk tokens g patterns a b) (hq : ∀ c', Keeps tokens g b e q c')
    (hr : ∀ c', Keeps tokens g a e r c') :
    Keeps tokens g a e (do if ← takes patterns then q else r) c :=
  (keeps_takes hwalk).bindWith fun v c' _ => by
    cases v with
    | true => exact hq c'
    | false => exact hr c'

theorem Keeps.ifNotTakes {e : β → Nat} {patterns : List Pattern} {q r : Parser β} {c : Cursor}
    (hwalk : Walk tokens g patterns a b) (hq : ∀ c', Keeps tokens g a e q c')
    (hr : ∀ c', Keeps tokens g b e r c') :
    Keeps tokens g a e (do if !(← takes patterns) then q else r) c :=
  (keeps_takes hwalk).bindWith fun v c' _ => by
    cases v with
    | true => exact hr c'
    | false => exact hq c'

/-- Tokens that lead nowhere higher or lower, taken or not. -/
theorem keeps_takes_level {patterns : List Pattern} {c : Cursor}
    (hwalk : Walk tokens g patterns a a) : Keeps tokens g a (fun _ => a) (takes patterns) c := by
  refine ⟨fun {v c'} habove h => ?_, (keeps_takes hwalk).stopped⟩
  have hdone := (keeps_takes hwalk).done habove h
  rwa [Bool.cond_self] at hdone

/-- A choice by whether a token with this text could be taken. -/
theorem Keeps.ifTakesText {e : β → Nat} {value : String} {q r : Parser β} {c : Cursor}
    (hstep : g.Step value a b) (hq : ∀ c', Keeps tokens g b e q c')
    (hr : ∀ c', Keeps tokens g a e r c') :
    Keeps tokens g a e (do if ← takesText value then q else r) c :=
  Keeps.ifTakes (.text hstep .nil) hq hr

/-- A choice by whether a word could be taken. -/
theorem Keeps.ifTakesWord {e : β → Nat} {value : String} {q r : Parser β} {c : Cursor}
    (hvalue : value ∉ Gauge.fences) (hq : ∀ c', Keeps tokens g a e q c')
    (hr : ∀ c', Keeps tokens g a e r c') :
    Keeps tokens g a e (do if ← takesText value then q else r) c :=
  Keeps.ifTakes (.word hvalue .nil) hq hr

theorem keeps_takesWord {value : String} {c : Cursor} (hvalue : value ∉ Gauge.fences) :
    Keeps tokens g a (fun _ => a) (takesText value) c :=
  keeps_takes_level (.word hvalue .nil)

/-! ### Rules for repetition -/

/-- The heights behind a step of a repetition: where it began, if it goes on, and another one, if
not. -/
def onward (a b : Nat) : Option α → Nat
  | some _ => a
  | none => b

theorem keeps_chain {step : α → Parser (Option α)} {first : α} {c : Cursor}
    (hstep : ∀ v c, Keeps tokens g a (onward a b) (step v) c) :
    Keeps tokens g a (fun _ => b) (chain step first) c := by
  have hwithin : ∀ rounds first c,
      Keeps tokens g a (fun _ => b) (chainWithin step rounds first) c := by
    intro rounds
    induction rounds with
    | zero => exact fun _ _ => keeps_stop _
    | succ rounds ih =>
      intro first c
      rw [chainWithin]
      refine (hstep first c).bindWith fun found c' _ => ?_
      cases found with
      | none => exact keeps_pure _ le_rfl
      | some next => exact (ih next c').bind fun _ _ _ => keeps_pure _ le_rfl
  exact ⟨(hwithin _ first c).done, (hwithin _ first c).stopped⟩

theorem keeps_collect {step : Parser (Option α)} {c : Cursor}
    (hstep : ∀ c, Keeps tokens g a (onward a b) step c) :
    Keeps tokens g a (fun _ => b) (collect step) c := by
  refine (hstep c).bindWith fun found c' _ => ?_
  cases found with
  | none => exact keeps_pure _ le_rfl
  | some first => exact keeps_chain fun _ c => hstep c

theorem onward_self (a : Nat) : onward a a = fun _ : Option α => a := by
  funext found
  cases found <;> rfl

theorem Keeps.chain {step : α → Parser (Option α)} {first : α} {c : Cursor}
    (hstep : ∀ v c, Keeps tokens g a (fun _ => a) (step v) c) :
    Keeps tokens g a (fun _ => a) (chain step first) c :=
  keeps_chain (by rwa [onward_self])

theorem Keeps.collect {step : Parser (Option α)} {c : Cursor}
    (hstep : ∀ c, Keeps tokens g a (fun _ => a) step c) :
    Keeps tokens g a (fun _ => a) (collect step) c :=
  keeps_collect (by rwa [onward_self])

theorem Keeps.separated {separator : String} {item : Parser α} {c : Cursor}
    (hseparator : separator ∉ Gauge.fences) (hitem : ∀ c, Keeps tokens g a (fun _ => a) item c) :
    Keeps tokens g a (fun _ => a) (separated separator item) c := by
  refine (hitem c).bind fun _ _ _ => Keeps.chain fun _ c => ?_
  exact Keeps.ifTakesWord hseparator
    (fun c => (hitem c).bind fun _ _ _ => keeps_pure _ le_rfl) (fun _ => keeps_pure _ le_rfl)

theorem Keeps.upTo {closer : String} {item : Parser α} {c : Cursor}
    (hitem : ∀ c, Keeps tokens g a (fun _ => a) item c) :
    Keeps tokens g a (fun _ => a) (upTo closer item) c :=
  Keeps.collect fun c => Keeps.ifPeek (peeks_seesText closer) (fun _ => keeps_pure _ le_rfl)
    ((hitem c).bind fun _ _ _ => keeps_pure _ le_rfl)

/-! ### Rules for attempts -/

/-- **An attempt keeps what its parser keeps, if reading may go back to where the attempt began.** -/
theorem Keeps.attempt {p : Parser α} {c : Cursor}
    (hp : Keeps tokens { g with floor := a } a (fun _ => a) p ⟨c.next, c.next⟩)
    (hfloor : g.floor ≤ a) (hres : Resumable tokens c.next) :
    Keeps tokens g a (fun _ => a) (attempt p) c where
  done := fun {v c'} habove h => by
    rw [Parser.attempt] at h
    split at h
    · -- It succeeds.  The mark is now its start, or what attempts inside it have left.
      rename_i value after hrun
      cases h
      obtain ⟨hpassed, habove'⟩ := hp.done habove hrun
      refine ⟨⟨hpassed.le, hpassed.clear, .inr ?_⟩, habove'⟩
      rcases hpassed.mark with hmark | ⟨hlo, hhi, hfloor', hres'⟩
      · rw [hmark]
        exact ⟨le_rfl, hpassed.le, habove.mono hfloor, hres⟩
      · exact ⟨hlo, hhi, Ground.Above.mono hfloor' hfloor, hres'⟩
    · -- It fails, and reading goes on from the mark, which may be behind the start.
      rename_i after hrun
      cases h
      rcases hp.stopped habove hrun with hmark | ⟨hlo, hclear, hfloor', -⟩
      · exact ⟨⟨hmark.ge, by rw [hmark]; exact .refl _, .inl rfl⟩, by rw [hmark]; exact habove⟩
      · exact ⟨⟨hlo, hclear, .inl rfl⟩, hfloor'⟩
    · cases h
  stopped := fun _ h => by
    rw [Parser.attempt] at h
    split at h
    · cases h
    · cases h
    · cases h
      exact .inl rfl

/-- Where a failed attempt has gone back to, reading may go back to again. -/
theorem resumable_of_attempt_none {p : Parser α} {c c' : Cursor} {e : α → Nat}
    (hp : Keeps tokens { g with floor := a } a e p ⟨c.next, c.next⟩)
    (habove : g.Above tokens a c.next) (hres : Resumable tokens c.next)
    (h : attempt p tokens c = .done none c') : Resumable tokens c'.next := by
  rw [attempt] at h
  split at h
  · cases h
  · rename_i after hrun
    cases h
    rcases hp.stopped habove hrun with hmark | ⟨-, -, -, hres'⟩
    · rwa [hmark]
    · exact hres'
  · cases h

/-! ### The rules of the grammar -/

/-- How high a rule must begin: where there may be braces, those of a brace, and where there may be
semicolons outside braces, those of a semicolon too. -/
def Rule.need (m : Gauge) : Rule → Nat
  | .reference | .annotationUse => 0
  | .blockStatement | .statement => max m.brace m.semicolon
  | _ => m.brace

/-- All rules of the grammar end as high as they begin, if they begin high enough. -/
structure Kept (tokens : Array Token) (parse : Descend) : Prop where
  /-- The classes of the tokens fit their texts. -/
  proper : ∀ t ∈ tokens, Proper t
  /-- What every rule keeps. -/
  keeps : ∀ {g : Ground} {a : Nat} (rule : Rule) {c : Cursor}, g.floor ≤ a →
    rule.need g.gauge ≤ a → Keeps tokens g a (fun _ => a) (parse rule) c

end SourceDoc.Grammar
