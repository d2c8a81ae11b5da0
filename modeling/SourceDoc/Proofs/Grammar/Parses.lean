import Mathlib.Data.List.Chain
import SourceDoc.Grammar.Types
import SourceDoc.Proofs.Grammar.Runs
import SourceDoc.Proofs.Token.Spelling

/-!
# What parsers read from given tokens

`Parses p lexemes value after` says that a parser reads tokens with these classes and texts and gives
the value, wherever they stand, if what follows them is as `after` says.  Each combinator has a rule,
so that a parser is shown to read what is written along the way it is written.  Repetition needs a
round for every item, and there are as many as tokens (`Parses.chain`).
-/

namespace SourceDoc.Grammar

open SourceDoc.Grammar.Parser SourceDoc.Token

variable {α β : Type}

/-! ### Tokens ahead -/

/-- The classes and texts of the tokens from a place on. -/
def ahead (tokens : Array Token) (i : Nat) : List Lexeme := (tokens.toList.drop i).map toLexeme

variable {tokens : Array Token} {i : Nat}

theorem ahead_append {a b : List Lexeme} (h : ahead tokens i = a ++ b) :
    ahead tokens (i + a.length) = b := by
  have hdrop := congrArg (List.drop a.length) h
  rwa [List.drop_left, ahead, ← List.map_drop, List.drop_drop] at hdrop

theorem exists_of_ahead_cons {l : Lexeme} {ls : List Lexeme} (h : ahead tokens i = l :: ls) :
    ∃ t, tokens[i]? = some t ∧ toLexeme t = l := by
  cases hdrop : tokens.toList.drop i with
  | nil =>
    rw [ahead, hdrop] at h
    cases h
  | cons t rest =>
    rw [ahead, hdrop, List.map_cons] at h
    refine ⟨t, ?_, (List.cons.inj h).1⟩
    have hhead := congrArg List.head? hdrop
    rwa [List.head?_drop, Array.getElem?_toList] at hhead

theorem getElem?_of_ahead_nil (h : ahead tokens i = []) : tokens[i]? = none := by
  rw [ahead, List.map_eq_nil_iff, List.drop_eq_nil_iff, Array.length_toList] at h
  exact Array.getElem?_eq_none h

theorem length_ahead_le (tokens : Array Token) (i : Nat) : (ahead tokens i).length ≤ tokens.size := by
  rw [ahead, List.length_map, List.length_drop, Array.length_toList]
  exact Nat.sub_le _ _

/-! ### Patterns -/

/-- Whether a class and a text are as asked. -/
def suits : Pattern → Lexeme → Bool
  | .text value, l => l.2 == value
  | .ofClass cls, l => l.1 == cls

/-- Whether classes and texts begin as asked, one by one. -/
def suitsAll : List Pattern → List Lexeme → Bool
  | [], _ => true
  | _ :: _, [] => false
  | pattern :: patterns, l :: ls => suits pattern l && suitsAll patterns ls

theorem fits_eq_suits (pattern : Pattern) (t : Token) :
    pattern.fits (some t) = suits pattern (toLexeme t) := by
  cases pattern <;> rfl

theorem fitsFrom_eq_suitsAll (patterns : List Pattern) (tokens : Array Token) (i : Nat) :
    fitsFrom tokens i patterns = suitsAll patterns (ahead tokens i) := by
  induction patterns generalizing i with
  | nil => rw [fitsFrom, suitsAll]
  | cons pattern patterns ih =>
    cases h : ahead tokens i with
    | nil =>
      rw [fitsFrom, getElem?_of_ahead_nil h, suitsAll]
      cases pattern <;> rfl
    | cons l ls =>
      obtain ⟨t, ht, rfl⟩ := exists_of_ahead_cons h
      have hrest := ahead_append (show ahead tokens i = [toLexeme t] ++ ls from h)
      rw [fitsFrom, ht, fits_eq_suits, ih, suitsAll]
      exact congrArg (suits pattern (toLexeme t) && suitsAll patterns ·) hrest

/-! ### Parsers -/

/-- A parser reads these tokens and gives the value, if what follows is as asked. -/
def Parses (p : Parser α) (lexemes : List Lexeme) (value : α) (after : List Lexeme → Prop) : Prop :=
  ∀ tokens i mark rest, ahead tokens i = lexemes ++ rest → after rest →
    p tokens ⟨i, mark⟩ = .done value ⟨i + lexemes.length, mark⟩

variable {after : List Lexeme → Prop}

theorem Parses.mono {p : Parser α} {ls : List Lexeme} {v : α} {after' : List Lexeme → Prop}
    (h : Parses p ls v after) (hafter : ∀ rest, after' rest → after rest) : Parses p ls v after' :=
  fun tokens i mark rest hahead hrest => h tokens i mark rest hahead (hafter rest hrest)

/-- Nothing is asked of what follows. -/
def Anything (_ : List Lexeme) : Prop := True

theorem parses_pure (v : α) : Parses (pure v) [] v after := fun _ _ _ _ _ _ => rfl

theorem Parses.bind {p : Parser α} {q : α → Parser β} {a b : List Lexeme} {v : α} {w : β}
    {mid : List Lexeme → Prop} (hp : Parses p a v mid) (hq : Parses (q v) b w after)
    (hmid : ∀ rest, after rest → mid (b ++ rest)) : Parses (p >>= q) (a ++ b) w after := by
  intro tokens i mark rest hahead hrest
  rw [List.append_assoc] at hahead
  rw [bind_of_done (hp tokens i mark (b ++ rest) hahead (hmid rest hrest)),
    hq tokens (i + a.length) mark rest (ahead_append hahead) hrest, List.length_append,
    Nat.add_assoc]

/-- What is made of the value of a parser. -/
theorem Parses.yield {p : Parser α} {f : α → β} {ls : List Lexeme} {v : α}
    (h : Parses p ls v after) : Parses (do return f (← p)) ls (f v) after := by
  intro tokens i mark rest hahead hrest
  rw [bind_of_done (h tokens i mark rest hahead hrest)]
  rfl

theorem parses_expect {pattern : Pattern} {l : Lexeme} (h : suits pattern l = true) :
    Parses (expect pattern) [l] l.2 Anything := by
  intro tokens i mark rest hahead _
  obtain ⟨t, ht, rfl⟩ := exists_of_ahead_cons hahead
  have hadvance : advance tokens ⟨i, mark⟩ = .done t ⟨i + 1, mark⟩ := advance_of_some ht
  rw [expect, bind_of_done hadvance, fits_eq_suits, h]
  rfl

theorem parses_symbol (cls : TokenClass) (value : String) :
    Parses (symbol value) [(cls, value)] () Anything := by
  have h : suits (.text value) (cls, value) = true := beq_self_eq_true value
  exact (parses_expect h).yield

theorem Parses.symbol {q : Parser α} {cls : TokenClass} {value : String} {ls : List Lexeme} {v : α}
    (h : Parses q ls v after) : Parses (do symbol value; q) ((cls, value) :: ls) v after :=
  (parses_symbol cls value).bind h fun _ _ => trivial

theorem Parses.expect {q : String → Parser α} {pattern : Pattern} {cls : TokenClass} {value : String}
    {ls : List Lexeme} {v : α} (hpattern : suits pattern (cls, value) = true)
    (h : Parses (q value) ls v after) :
    Parses (do q (← expect pattern)) ((cls, value) :: ls) v after :=
  (parses_expect hpattern).bind h fun _ _ => trivial

/-- A choice by what is seen. -/
theorem Parses.ifSees {patterns : List Pattern} {q r : Parser α} {ls : List Lexeme} {v : α}
    (found : Bool) (hfound : ∀ rest, after rest → suitsAll patterns (ls ++ rest) = found)
    (hrun : Parses (if found = true then q else r) ls v after) :
    Parses (do if ← sees patterns then q else r) ls v after := by
  intro tokens i mark rest hahead hrest
  rw [bind_of_done (sees_eq patterns tokens ⟨i, mark⟩), fitsFrom_eq_suitsAll, hahead,
    hfound rest hrest]
  exact hrun tokens i mark rest hahead hrest

theorem suitsAll_append {patterns : List Pattern} {a : List Lexeme}
    (hsuits : suitsAll patterns a = true) (b : List Lexeme) : suitsAll patterns (a ++ b) = true := by
  induction patterns generalizing a with
  | nil => rw [suitsAll]
  | cons pattern patterns ih =>
    cases a with
    | nil => cases hsuits
    | cons l ls =>
      rw [suitsAll, Bool.and_eq_true] at hsuits
      rw [List.cons_append, suitsAll, hsuits.1, ih hsuits.2]
      rfl

/-- Tokens that are as asked are taken. -/
theorem Parses.ifTakes {patterns : List Pattern} {q r : Parser α} {a b : List Lexeme} {v : α}
    (hsuits : suitsAll patterns a = true) (hlength : a.length = patterns.length)
    (hrun : Parses q b v after) :
    Parses (do if ← takes patterns then q else r) (a ++ b) v after := by
  intro tokens i mark rest hahead hrest
  rw [List.append_assoc] at hahead
  have htakes : takes patterns tokens ⟨i, mark⟩ = .done true ⟨i + a.length, mark⟩ := by
    rw [takes_eq, fitsFrom_eq_suitsAll, hahead, if_pos (suitsAll_append hsuits (b ++ rest)), hlength]
  rw [bind_of_done htakes, List.length_append, ← Nat.add_assoc]
  exact hrun tokens (i + a.length) mark rest (ahead_append hahead) hrest

/-- A token with the text asked for is taken. -/
theorem Parses.ifTakesText {q r : Parser α} (l : Lexeme) {ls : List Lexeme} {v : α}
    (hrun : Parses q ls v after) :
    Parses (do if ← takesText l.2 then q else r) (l :: ls) v after := by
  have hsuits : suitsAll [.text l.2] [l] = true := by simp [suitsAll, suits]
  exact .ifTakes hsuits rfl hrun

/-- Tokens that are not as asked are left. -/
theorem Parses.ifLeaves {patterns : List Pattern} {q r : Parser α} {ls : List Lexeme} {v : α}
    (hsuits : ∀ rest, after rest → suitsAll patterns (ls ++ rest) = false)
    (hrun : Parses r ls v after) : Parses (do if ← takes patterns then q else r) ls v after := by
  intro tokens i mark rest hahead hrest
  have htakes : takes patterns tokens ⟨i, mark⟩ = .done false ⟨i, mark⟩ := by
    rw [takes_eq, fitsFrom_eq_suitsAll, hahead, hsuits rest hrest]
    rfl
  rw [bind_of_done htakes]
  exact hrun tokens i mark rest hahead hrest

/-! ### Repetition -/

/-- A chain gives what its steps find, given a round for each. -/
theorem chain_of_links {step : α → Parser (Option α)} {first : α} {vs : List α} {c c' : Cursor}
    (h : Links step tokens first c vs c') (hlength : vs.length ≤ tokens.size + 1) :
    chain step first tokens c = .done vs c' := by
  rw [chain]
  generalize tokens.size + 1 = rounds at hlength
  induction h generalizing rounds with
  | last h =>
    obtain ⟨rounds, rfl⟩ : ∃ m, rounds = m + 1 := ⟨rounds - 1, by simp at hlength; omega⟩
    rw [chainWithin, bind_of_done h]
    rfl
  | next h _ ih =>
    rw [List.length_cons] at hlength
    obtain ⟨rounds, rfl⟩ : ∃ m, rounds = m + 1 := ⟨rounds - 1, by omega⟩
    rw [chainWithin, bind_of_done h]
    show (chainWithin step rounds _ >>= fun _ => _) tokens _ = _
    rw [bind_of_done (ih rounds (by omega))]
    rfl

theorem length_le_length_flatMap {piece : α → List Lexeme} {items : List α}
    (h : ∀ w ∈ items, piece w ≠ []) : items.length ≤ (items.flatMap piece).length := by
  induction items with
  | nil => exact Nat.zero_le _
  | cons w items ih =>
    have hw := List.length_pos_iff.2 (h w List.mem_cons_self)
    have hitems := ih fun u hu => h u (List.mem_cons_of_mem w hu)
    rw [List.flatMap_cons, List.length_append, List.length_cons]
    omega

/-- **A chain reads its items one after the other**, if each step reads the item that follows and
the last finds none.  The values of the items are what the chain gives. -/
theorem Parses.chainMap {ι : Type} {step : α → Parser (Option α)} (value : ι → α)
    {piece : ι → List Lexeme} {final : List Lexeme} {first : ι} {others : List ι}
    (mid : List Lexeme → Prop)
    (hstep : (first :: others).IsChain fun v w =>
      Parses (step (value v)) (piece w) (some (value w)) mid)
    (hlast : ∀ v ∈ (first :: others).getLast?, Parses (step (value v)) final none after)
    (hpiece : ∀ w ∈ others, piece w ≠ [] ∧ ∀ rest, mid (piece w ++ rest))
    (hfinal : ∀ rest, after rest → mid (final ++ rest)) :
    Parses (chain step (value first)) (others.flatMap piece ++ final)
      ((first :: others).map value) after := by
  intro tokens i mark rest hahead hrest
  have hlinks : Links step tokens (value first) ⟨i, mark⟩ ((first :: others).map value)
      ⟨i + (others.flatMap piece ++ final).length, mark⟩ := by
    induction others generalizing first i with
    | nil =>
      refine .last ?_
      exact hlast first rfl tokens i mark rest hahead hrest
    | cons w others ih =>
      rw [List.isChain_cons_cons] at hstep
      rw [List.flatMap_cons, List.append_assoc, List.append_assoc] at hahead
      have hmid : mid (others.flatMap piece ++ (final ++ rest)) := by
        cases others with
        | nil => exact hfinal rest hrest
        | cons u others =>
          rw [List.flatMap_cons, List.append_assoc]
          exact (hpiece u (List.mem_cons_of_mem w List.mem_cons_self)).2 _
      refine .next (hstep.1 tokens i mark _ hahead hmid) ?_
      have hrestlinks := ih hstep.2 hlast (fun u hu => hpiece u (List.mem_cons_of_mem w hu))
        (i + (piece w).length) (by rw [List.append_assoc]; exact ahead_append hahead)
      rwa [List.flatMap_cons, List.append_assoc, List.length_append, ← Nat.add_assoc]
  refine chain_of_links hlinks ?_
  have hlength := length_le_length_flatMap fun w hw => (hpiece w hw).1
  have hsize := length_ahead_le tokens i
  rw [hahead, List.length_append, List.length_append] at hsize
  rw [List.length_map, List.length_cons]
  omega

theorem Parses.chain {step : α → Parser (Option α)} {piece : α → List Lexeme} {final : List Lexeme}
    {first : α} {others : List α} (mid : List Lexeme → Prop)
    (hstep : (first :: others).IsChain fun v w => Parses (step v) (piece w) (some w) mid)
    (hlast : ∀ v ∈ (first :: others).getLast?, Parses (step v) final none after)
    (hpiece : ∀ w ∈ others, piece w ≠ [] ∧ ∀ rest, mid (piece w ++ rest))
    (hfinal : ∀ rest, after rest → mid (final ++ rest)) :
    Parses (chain step first) (others.flatMap piece ++ final) (first :: others) after := by
  have hchain := Parses.chainMap id mid hstep hlast hpiece hfinal
  rwa [List.map_id] at hchain

theorem isChain_of_forall {P : α → Prop} (first : α) {others : List α} (h : ∀ w ∈ others, P w) :
    (first :: others).IsChain fun _ w => P w := by
  induction others generalizing first with
  | nil => exact .singleton first
  | cons w others ih =>
    rw [List.isChain_cons_cons]
    exact ⟨h w List.mem_cons_self, ih w fun u hu => h u (List.mem_cons_of_mem w hu)⟩

/-- A repetition reads its items one after the other. -/
theorem Parses.collect {step : Parser (Option α)} {piece : α → List Lexeme} {final : List Lexeme}
    {items : List α} (mid : List Lexeme → Prop)
    (hstep : ∀ w ∈ items, Parses step (piece w) (some w) mid)
    (hlast : Parses step final none after)
    (hpiece : ∀ w ∈ items, piece w ≠ [] ∧ ∀ rest, mid (piece w ++ rest))
    (hfinal : ∀ rest, after rest → mid (final ++ rest)) :
    Parses (collect step) (items.flatMap piece ++ final) items after := by
  cases items with
  | nil =>
    have hnone : Parses (Parser.collect step) (final ++ []) [] after :=
      hlast.bind (parses_pure []) fun _ h => h
    rwa [List.append_nil] at hnone
  | cons first others =>
    have hothers : ∀ w ∈ others, w ∈ first :: others := fun w hw => List.mem_cons_of_mem first hw
    have hchain : Parses (Parser.chain (fun _ => step) first) (others.flatMap piece ++ final)
        (first :: others) after :=
      .chain mid (isChain_of_forall first fun w hw => hstep w (hothers w hw)) (fun _ _ => hlast)
        (fun w hw => hpiece w (hothers w hw)) hfinal
    rw [List.flatMap_cons, List.append_assoc]
    refine (hstep first List.mem_cons_self).bind hchain fun rest hrest => ?_
    cases others with
    | nil => exact hfinal rest hrest
    | cons w others =>
      rw [List.flatMap_cons, List.append_assoc, List.append_assoc]
      exact (hpiece w (hothers w List.mem_cons_self)).2 _

theorem intercalate_singleton_eq (l : Lexeme) (lexemes : α → List Lexeme) (first : α)
    (others : List α) : [l].intercalate ((first :: others).map lexemes) =
      lexemes first ++ others.flatMap fun w => l :: lexemes w := by
  induction others generalizing first with
  | nil => simp
  | cons w others ih =>
    have hrest := ih w
    rw [List.map_cons] at hrest
    rw [List.map_cons, List.map_cons, List.intercalate_cons_cons, hrest, List.flatMap_cons]
    simp

/-- What follows an item in a list: the separator, or the end of the list. -/
structure Separates (l : Lexeme) (mid after : List Lexeme → Prop) : Prop where
  /-- The separator may follow an item. -/
  next : ∀ rest, mid (l :: rest)
  /-- What follows the list may follow an item. -/
  last : ∀ rest, after rest → mid rest

/-- Items with a separator between them. -/
theorem Parses.separatedMap {ι : Type} (l : Lexeme) {item : Parser α} (value : ι → α)
    {lexemes : ι → List Lexeme} {items : List ι} {mid : List Lexeme → Prop} (hne : items ≠ [])
    (hitems : ∀ w ∈ items, Parses item (lexemes w) (value w) mid) (hmid : Separates l mid after)
    (hstop : ∀ rest, after rest → suitsAll [.text l.2] rest = false) :
    Parses (separated l.2 item) ([l].intercalate (items.map lexemes)) (items.map value) after := by
  cases items with
  | nil => exact absurd rfl hne
  | cons first others =>
    have hstep : ∀ w ∈ others, Parses (do
        if ← takesText l.2 then return some (← item) else return none)
        (l :: lexemes w) (some (value w)) mid := by
      intro w hw
      exact .ifTakesText l (hitems w (List.mem_cons_of_mem first hw)).yield
    have hlast : Parses (do if ← takesText l.2 then return some (← item) else return none)
        [] none after := .ifLeaves hstop (parses_pure none)
    have hchain : Parses (Parser.chain (fun _ => do
        if ← takesText l.2 then return some (← item) else return none) (value first))
        (others.flatMap (fun w => l :: lexemes w) ++ []) ((first :: others).map value) after :=
      .chainMap value mid (isChain_of_forall first hstep) (fun _ _ => hlast)
        (fun w _ => ⟨List.cons_ne_nil l (lexemes w), fun rest => hmid.next _⟩) hmid.last
    rw [List.append_nil] at hchain
    rw [intercalate_singleton_eq]
    refine (hitems first List.mem_cons_self).bind hchain fun rest hrest => ?_
    cases others with
    | nil => exact hmid.last rest hrest
    | cons w others => exact hmid.next _

theorem Parses.separated (l : Lexeme) {item : Parser α} {lexemes : α → List Lexeme} {items : List α}
    {mid : List Lexeme → Prop} (hne : items ≠ [])
    (hitems : ∀ w ∈ items, Parses item (lexemes w) w mid) (hmid : Separates l mid after)
    (hstop : ∀ rest, after rest → suitsAll [.text l.2] rest = false) :
    Parses (separated l.2 item) ([l].intercalate (items.map lexemes)) items after := by
  have hmap := Parses.separatedMap l id hne hitems hmid hstop
  rwa [List.map_id] at hmap

/-- Items with commas between them, up to a closing token. -/
theorem Parses.listed (closer : Lexeme) (hcloser : closer.2 ≠ ",") {item : Parser α}
    {lexemes : α → List Lexeme} {items : List α} (mid : List Lexeme → Prop) (hne : items ≠ [])
    (hitems : ∀ w ∈ items, Parses item (lexemes w) w mid)
    (hmid : ∀ rest, mid ((.separator, ",") :: rest) ∧ mid (closer :: rest)) :
    Parses (listed closer.2 item)
      ([(.separator, ",")].intercalate (items.map lexemes) ++ [closer]) items after := by
  cases items with
  | nil => exact absurd rfl hne
  | cons first others =>
    have hstep : ∀ w ∈ others, Parses (do
        if ← takesText closer.2 then return none
        Parser.symbol ","
        return some (← item)) ((.separator, ",") :: lexemes w) (some w) mid := by
      intro w hw
      refine .ifLeaves (fun rest _ => ?_) ?_
      · simp [suitsAll, suits, Ne.symm hcloser]
      · have hitem : Parses (do return some (← item)) (lexemes w) (some w) mid :=
          (hitems w (List.mem_cons_of_mem first hw)).yield
        exact hitem.symbol
    have hlast : Parses (do
        if ← takesText closer.2 then return none
        Parser.symbol ","
        return some (← item)) [closer] none after :=
      .ifTakesText closer (parses_pure none)
    have hchain := Parses.chain mid (isChain_of_forall first hstep) (fun _ _ => hlast)
      (fun w _ => ⟨List.cons_ne_nil _ (lexemes w), fun rest => (hmid _).1⟩) fun rest _ => (hmid rest).2
    rw [intercalate_singleton_eq, List.append_assoc]
    refine (hitems first List.mem_cons_self).bind hchain fun rest hrest => ?_
    cases others with
    | nil => exact (hmid rest).2
    | cons w others => exact (hmid _).1

/-! ### Values that depend on the place -/

/-- A parser reads these tokens and gives a value with a property, if what follows is as asked. -/
def Accepts (p : Parser α) (lexemes : List Lexeme) (P : α → Prop) (after : List Lexeme → Prop) :
    Prop :=
  ∀ tokens i mark rest, ahead tokens i = lexemes ++ rest → after rest →
    ∃ v, P v ∧ p tokens ⟨i, mark⟩ = .done v ⟨i + lexemes.length, mark⟩

variable {P : α → Prop} {Q : β → Prop}

theorem accepts_pure {v : α} (h : P v) : Accepts (pure v) [] P after :=
  fun _ _ _ _ _ _ => ⟨v, h, rfl⟩

theorem Accepts.bind {p : Parser α} {q : α → Parser β} {a b : List Lexeme}
    {mid : List Lexeme → Prop} (hp : Accepts p a P mid)
    (hq : ∀ v, P v → Accepts (q v) b Q after) (hmid : ∀ rest, after rest → mid (b ++ rest)) :
    Accepts (p >>= q) (a ++ b) Q after := by
  intro tokens i mark rest hahead hrest
  rw [List.append_assoc] at hahead
  obtain ⟨v, hv, hrun⟩ := hp tokens i mark (b ++ rest) hahead (hmid rest hrest)
  obtain ⟨w, hw, hnext⟩ := hq v hv tokens (i + a.length) mark rest (ahead_append hahead) hrest
  refine ⟨w, hw, ?_⟩
  rw [bind_of_done hrun, hnext, List.length_append, Nat.add_assoc]

theorem Parses.accepts {p : Parser α} {ls : List Lexeme} {v : α} (h : Parses p ls v after) :
    Accepts p ls (· = v) after :=
  fun tokens i mark rest hahead hrest => ⟨v, rfl, h tokens i mark rest hahead hrest⟩

/-- What reads nothing further behind a parser. -/
theorem Accepts.finish {p : Parser α} {q : α → Parser β} {ls : List Lexeme}
    (hp : Accepts p ls P after) (hq : ∀ v, P v → Accepts (q v) [] Q after) :
    Accepts (p >>= q) ls Q after := by
  have hbind : Accepts (p >>= q) (ls ++ []) Q after := hp.bind hq fun _ hrest => hrest
  rwa [List.append_nil] at hbind

/-- What is made of the value of a parser. -/
theorem Accepts.yield {p : Parser α} {f : α → β} {ls : List Lexeme} (h : Accepts p ls P after)
    (hf : ∀ v, P v → Q (f v)) : Accepts (do return f (← p)) ls Q after :=
  h.finish fun v hv => accepts_pure (hf v hv)

/-- What is read behind a parser whose value is known. -/
theorem Parses.thenAccepts {p : Parser α} {q : α → Parser β} {a b : List Lexeme} {v : α}
    {mid : List Lexeme → Prop} (hp : Parses p a v mid) (hq : Accepts (q v) b Q after)
    (hmid : ∀ rest, after rest → mid (b ++ rest)) : Accepts (p >>= q) (a ++ b) Q after :=
  hp.accepts.bind (fun _ hw => hw ▸ hq) hmid

theorem Accepts.peek {p : Parser α} {q : α → Parser β} {ls : List Lexeme} (hp : Peeks p)
    (hq : ∀ v, Accepts (q v) ls Q after) : Accepts (p >>= q) ls Q after := by
  intro tokens i mark rest hahead hrest
  obtain ⟨v, hv⟩ := hp tokens ⟨i, mark⟩
  obtain ⟨w, hw, hrun⟩ := hq v tokens i mark rest hahead hrest
  exact ⟨w, hw, (bind_of_done hv).trans hrun⟩

theorem Accepts.measured {p : Parser α} {ls : List Lexeme} (h : Accepts p ls P after) :
    Accepts (measured p) ls (fun m => P m.1) after := by
  apply Accepts.peek peeks_index
  intro first
  apply h.finish
  intro v hv
  exact .peek peeks_index fun stop => accepts_pure hv

/-- A repetition that reads one item. -/
theorem Accepts.collectOne {step : Parser (Option α)} {ls : List Lexeme} (mid : List Lexeme → Prop)
    (hitem : Accepts step ls (fun found => ∃ v, found = some v ∧ P v) mid)
    (hlast : Parses step [] none after) (hmid : ∀ rest, after rest → mid rest) :
    Accepts (collect step) ls (fun vs => ∃ v, vs = [v] ∧ P v) after := by
  intro tokens i mark rest hahead hrest
  obtain ⟨_, ⟨v, rfl, hv⟩, hrun⟩ := hitem tokens i mark rest hahead (hmid rest hrest)
  have hnone := hlast tokens (i + ls.length) mark rest (ahead_append hahead) hrest
  refine ⟨[v], ⟨v, rfl, hv⟩, ?_⟩
  rw [collect, bind_of_done hrun]
  exact chain_of_links (.last hnone) (Nat.le_add_left 1 tokens.size)

theorem Accepts.symbol {q : Parser α} {cls : TokenClass} {value : String} {ls : List Lexeme}
    (h : Accepts q ls P after) : Accepts (do symbol value; q) ((cls, value) :: ls) P after :=
  (parses_symbol cls value).thenAccepts h fun _ _ => trivial

/-- A choice by what is seen. -/
theorem Accepts.ifSees {patterns : List Pattern} {q r : Parser α} {ls : List Lexeme}
    (found : Bool) (hfound : ∀ rest, after rest → suitsAll patterns (ls ++ rest) = found)
    (hrun : Accepts (if found = true then q else r) ls P after) :
    Accepts (do if ← sees patterns then q else r) ls P after := by
  intro tokens i mark rest hahead hrest
  rw [bind_of_done (sees_eq patterns tokens ⟨i, mark⟩), fitsFrom_eq_suitsAll, hahead,
    hfound rest hrest]
  exact hrun tokens i mark rest hahead hrest

theorem parses_leaves (patterns : List Pattern) :
    Parses (takes patterns) [] false fun rest => suitsAll patterns rest = false := by
  intro tokens i mark rest hahead hrest
  rw [takes_eq, fitsFrom_eq_suitsAll, hahead, List.nil_append, hrest]
  rfl

/-- Tokens that are not as asked are left. -/
theorem Accepts.ifLeaves {patterns : List Pattern} {q r : Parser α} {ls : List Lexeme}
    (hsuits : ∀ rest, after rest → suitsAll patterns (ls ++ rest) = false)
    (hrun : Accepts r ls P after) : Accepts (do if ← takes patterns then q else r) ls P after :=
  (parses_leaves patterns).thenAccepts hrun hsuits

end SourceDoc.Grammar
