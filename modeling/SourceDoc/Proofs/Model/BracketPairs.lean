import Mathlib.Data.List.Induction
import SourceDoc.Model.SimpleName

/-!
# Pairs of angle brackets

A single pass over a text, from left to right, keeps the opening brackets that wait for a partner on a
stack; a closing bracket is the partner of the last of them, or of none if no bracket waits
(`bracketPass`).  `textOutside` is the text without what stands in one of these pairs.  A bracket without
a partner is not in one of them (`IsUnmatched.isWithin_eq_false`).

The pass speaks of places.  `CutBack` has texts on its stack instead: a closing bracket takes back
everything since its partner.  What it keeps is the same (`cutBack_eq_leaves`).
-/

namespace SourceDoc

/-! ### The pass -/

/-- What a pass over the beginning of a text has found. -/
structure BracketPass where
  /-- The places of the opening brackets that wait for a partner, the last one first. -/
  waiting : List Nat
  /-- The places of two brackets that are partners. -/
  pairs : List (Nat × Nat)
  deriving DecidableEq, Repr

/-- The pass reads the character at the next place. -/
def BracketPass.read (pass : BracketPass) (next : Char × Nat) : BracketPass :=
  if next.1 = '<' then { pass with waiting := next.2 :: pass.waiting }
  else if next.1 = '>' then
    match pass.waiting with
    | [] => pass -- a bracket that closes nothing
    | start :: waiting => ⟨waiting, (start, next.2) :: pass.pairs⟩
  else pass

/-- The pass over a text. -/
def bracketPass (text : List Char) : BracketPass := text.zipIdx.foldl BracketPass.read ⟨[], []⟩

/-- A place is that of a bracket with a partner, or between such brackets. -/
def isWithin (pairs : List (Nat × Nat)) (place : Nat) : Bool :=
  pairs.any fun pair => pair.1 ≤ place && place ≤ pair.2

/-- The characters of a text that are not within pairs. -/
def keepOutside (pairs : List (Nat × Nat)) (text : List Char) : List Char :=
  (text.zipIdx.filter fun item => !isWithin pairs item.2).map Prod.fst

/-- **The text without its pairs of brackets**, each with everything inside it.  The other pairs lie within
the outermost ones and go with them. -/
def textOutside (text : List Char) : List Char := keepOutside (bracketPass text).pairs text

/-- A place where a bracket stands that has no partner. -/
def IsUnmatched (text : List Char) (place : Nat) : Prop :=
  (text[place]? = some '<' ∨ text[place]? = some '>') ∧
    ∀ pair ∈ (bracketPass text).pairs, place ≠ pair.1 ∧ place ≠ pair.2

theorem bracketPass_concat (text : List Char) (c : Char) :
    bracketPass (text ++ [c]) = (bracketPass text).read (c, text.length) := by
  rw [bracketPass, List.zipIdx_append, List.foldl_append, Nat.zero_add]
  rfl

/-- **What one character does**: it waits for a partner, or it is the partner of the last bracket that
waits, or nothing changes. -/
theorem BracketPass.read_cases (pass : BracketPass) (c : Char) (place : Nat) :
    (c = '<' ∧ pass.read (c, place) = ⟨place :: pass.waiting, pass.pairs⟩) ∨
      (∃ start waiting, c = '>' ∧ pass.waiting = start :: waiting ∧
        pass.read (c, place) = ⟨waiting, (start, place) :: pass.pairs⟩) ∨
      (c ≠ '<' ∧ (c = '>' → pass.waiting = []) ∧ pass.read (c, place) = pass) := by
  by_cases hopen : c = '<'
  · exact .inl ⟨hopen, if_pos hopen⟩
  by_cases hclose : c = '>'
  · obtain ⟨waiting, pairs⟩ := pass
    cases waiting with
    | nil => exact .inr (.inr ⟨hopen, fun _ => rfl, (if_neg hopen).trans (if_pos hclose)⟩)
    | cons start waiting =>
      exact .inr (.inl ⟨start, waiting, hclose, rfl, (if_neg hopen).trans (if_pos hclose)⟩)
  · exact .inr (.inr ⟨hopen, fun h => absurd h hclose, (if_neg hopen).trans (if_neg hclose)⟩)

/-! ### Places within pairs -/

theorem isWithin_eq_false_iff {pairs : List (Nat × Nat)} {place : Nat} :
    isWithin pairs place = false ↔ ∀ pair ∈ pairs, place < pair.1 ∨ pair.2 < place := by
  simp only [isWithin, List.any_eq_false, Bool.and_eq_true, decide_eq_true_eq, not_and_or,
    Nat.not_le]

theorem isWithin_cons_of_lt {pairs : List (Nat × Nat)} {start stop place : Nat} (h : place < start) :
    isWithin ((start, stop) :: pairs) place = isWithin pairs place := by
  simp [isWithin, Nat.not_le.2 h]

theorem isWithin_cons_of_le {pairs : List (Nat × Nat)} {start stop place : Nat} (hlo : start ≤ place)
    (hhi : place ≤ stop) : isWithin ((start, stop) :: pairs) place = true := by
  simp [isWithin, hlo, hhi]

theorem keepOutside_concat (pairs : List (Nat × Nat)) (text : List Char) (c : Char) :
    keepOutside pairs (text ++ [c]) =
      keepOutside pairs text ++ if isWithin pairs text.length then [] else [c] := by
  rw [keepOutside, keepOutside, List.zipIdx_append, List.filter_append, List.map_append, Nat.zero_add]
  cases h : isWithin pairs text.length <;> simp [h]

/-- A pair has no influence on the text before it. -/
theorem keepOutside_cons_of_le {pairs : List (Nat × Nat)} {text : List Char} {start stop : Nat}
    (h : text.length ≤ start) : keepOutside ((start, stop) :: pairs) text = keepOutside pairs text := by
  induction text using List.reverseRecOn with
  | nil => rfl
  | append_singleton text c ih =>
    rw [List.length_append, List.length_singleton] at h
    rw [keepOutside_concat, keepOutside_concat, ih (by omega), isWithin_cons_of_lt (by omega)]

/-- A pair up to the end of a text leaves what stands before it. -/
theorem keepOutside_cons_of_lt {pairs : List (Nat × Nat)} {text : List Char} {start stop : Nat}
    (hlo : start ≤ text.length) (hhi : text.length ≤ stop + 1) :
    keepOutside ((start, stop) :: pairs) text = keepOutside pairs (text.take start) := by
  induction text using List.reverseRecOn with
  | nil => rw [List.take_nil, keepOutside_cons_of_le (Nat.zero_le start)]
  | append_singleton text c ih =>
    rw [List.length_append, List.length_singleton] at hlo hhi
    rcases Nat.lt_or_ge text.length start with hlt | hle
    · -- The pair begins behind the text.
      have hbehind : (text ++ [c]).length ≤ start := by rwa [List.length_append]
      rw [List.take_of_length_le hbehind, keepOutside_cons_of_le hbehind]
    · rw [keepOutside_concat, isWithin_cons_of_le hle (by omega), if_pos rfl, List.append_nil,
        ih hle (by omega), List.take_append_of_le_length hle]

/-! ### Places of the pass -/

/-- The places of a pass over some characters: brackets that wait are in order, and outside of the pairs. -/
structure BracketPass.Placed (pass : BracketPass) (length : Nat) : Prop where
  /-- A bracket that waits has been read. -/
  waiting_lt : ∀ place ∈ pass.waiting, place < length
  /-- The last bracket is the first on the stack. -/
  descending : pass.waiting.Pairwise (· > ·)
  /-- A bracket that ends a pair has been read. -/
  pairs_lt : ∀ pair ∈ pass.pairs, pair.2 < length

/-- **One character keeps the places in order.** -/
theorem BracketPass.Placed.read {pass : BracketPass} {length : Nat} (h : pass.Placed length) (c : Char) :
    (pass.read (c, length)).Placed (length + 1) := by
  have hpairs : ∀ pair ∈ pass.pairs, pair.2 < length + 1 := fun pair hpair =>
    Nat.lt_succ_of_lt (h.pairs_lt pair hpair)
  have hwaiting : ∀ place ∈ pass.waiting, place < length + 1 := fun place hplace =>
    Nat.lt_succ_of_lt (h.waiting_lt place hplace)
  obtain ⟨-, hread⟩ | ⟨start, waiting, -, hstack, hread⟩ | ⟨-, -, hread⟩ := pass.read_cases c length
  · rw [hread]
    exact ⟨List.forall_mem_cons.2 ⟨Nat.lt_succ_self length, hwaiting⟩,
      List.pairwise_cons.2 ⟨h.waiting_lt, h.descending⟩, hpairs⟩
  · have hdescending := h.descending
    rw [hstack] at hdescending hwaiting
    rw [hread]
    exact ⟨(List.forall_mem_cons.1 hwaiting).2, (List.pairwise_cons.1 hdescending).2,
      List.forall_mem_cons.2 ⟨Nat.lt_succ_self length, hpairs⟩⟩
  · rw [hread]
    exact ⟨hwaiting, h.descending, hpairs⟩

theorem placed_bracketPass (text : List Char) : (bracketPass text).Placed text.length := by
  induction text using List.reverseRecOn with
  | nil =>
    exact ⟨fun _ h => absurd h List.not_mem_nil, .nil, fun _ h => absurd h List.not_mem_nil⟩
  | append_singleton text c ih =>
    rw [bracketPass_concat, List.length_append, List.length_singleton]
    exact ih.read c

/-- No pair goes on behind what was read. -/
theorem BracketPass.Placed.isWithin_length {pass : BracketPass} {length : Nat} (h : pass.Placed length) :
    isWithin pass.pairs length = false :=
  isWithin_eq_false_iff.2 fun pair hpair => .inr (h.pairs_lt pair hpair)

/-! ### Brackets without a partner -/

/-- Where the brackets of a text are: each of them has a partner, or it waits for one, or it closes and
there was none.  Those that have none are outside of the pairs. -/
structure BracketPass.Accounts (pass : BracketPass) (text : List Char) : Prop where
  /-- An opening bracket waits or begins a pair. -/
  opens : ∀ place, text[place]? = some '<' → place ∈ pass.waiting ∨ ∃ pair ∈ pass.pairs, place = pair.1
  /-- A closing bracket ends a pair, or stands outside of pairs and before all that wait. -/
  closes : ∀ place, text[place]? = some '>' → (∃ pair ∈ pass.pairs, place = pair.2) ∨
    isWithin pass.pairs place = false ∧ ∀ start ∈ pass.waiting, place < start
  /-- What waits stands outside of pairs. -/
  apart : ∀ place ∈ pass.waiting, isWithin pass.pairs place = false

theorem getElem?_concat_eq_some {text : List Char} {c d : Char} {place : Nat}
    (h : (text ++ [c])[place]? = some d) :
    text[place]? = some d ∨ place = text.length ∧ c = d := by
  rcases Nat.lt_trichotomy place text.length with hlt | rfl | hgt
  · rw [List.getElem?_append_left hlt] at h
    exact .inl h
  · rw [List.getElem?_concat_length] at h
    exact .inr ⟨rfl, Option.some.inj h⟩
  · rw [List.getElem?_eq_none (by rw [List.length_append]; exact hgt)] at h
    cases h

/-- A closing bracket with a partner is accounted for, and so is all that the new pair takes in: from the
last bracket that waits on, every other bracket has a partner. -/
theorem BracketPass.Accounts.pair {pass : BracketPass} {text : List Char} {start : Nat}
    {waiting : List Nat} (h : pass.Accounts text) (hplaced : pass.Placed text.length)
    (hstack : pass.waiting = start :: waiting) :
    Accounts ⟨waiting, (start, text.length) :: pass.pairs⟩ (text ++ ['>']) := by
  obtain ⟨hopens, hcloses, hapart⟩ := h
  have hdescending := hplaced.descending
  rw [hstack] at hopens hcloses hapart hdescending
  have hbelow := (List.pairwise_cons.1 hdescending).1
  refine ⟨fun place hplace => ?_, fun place hplace => ?_, fun place hplace => ?_⟩
  · rcases getElem?_concat_eq_some hplace with hplace | ⟨-, hne⟩
    · rcases hopens place hplace with hmem | ⟨pair, hpair, heq⟩
      · rcases List.mem_cons.1 hmem with rfl | hmem
        · exact .inr ⟨_, List.mem_cons_self, rfl⟩
        · exact .inl hmem
      · exact .inr ⟨pair, List.mem_cons_of_mem _ hpair, heq⟩
    · exact absurd hne (by decide)
  · rcases getElem?_concat_eq_some hplace with hplace | ⟨rfl, -⟩
    · rcases hcloses place hplace with ⟨pair, hpair, heq⟩ | ⟨hfree, hbefore⟩
      · exact .inl ⟨pair, List.mem_cons_of_mem _ hpair, heq⟩
      · -- It stands before all that wait, so before the new pair.
        obtain ⟨hstart, hwaiting⟩ := List.forall_mem_cons.1 hbefore
        exact .inr ⟨by rw [isWithin_cons_of_lt hstart, hfree], hwaiting⟩
    · exact .inl ⟨_, List.mem_cons_self, rfl⟩
  · rw [isWithin_cons_of_lt (hbelow place hplace)]
    exact hapart place (List.mem_cons_of_mem _ hplace)

/-- **One character keeps the account.** -/
theorem BracketPass.Accounts.read {pass : BracketPass} {text : List Char} (h : pass.Accounts text)
    (hplaced : pass.Placed text.length) (c : Char) :
    (pass.read (c, text.length)).Accounts (text ++ [c]) := by
  obtain ⟨rfl, hread⟩ | ⟨start, waiting, rfl, hstack, hread⟩ | ⟨hopen, hclose, hread⟩ :=
    pass.read_cases c text.length
  · rw [hread]
    refine ⟨fun place hplace => ?_, fun place hplace => ?_, ?_⟩
    · rcases getElem?_concat_eq_some hplace with hplace | ⟨rfl, -⟩
      · exact (h.opens place hplace).imp_left (List.mem_cons_of_mem _)
      · exact .inl List.mem_cons_self
    · rcases getElem?_concat_eq_some hplace with hplace | ⟨-, hne⟩
      · have hlt := (List.getElem?_eq_some_iff.1 hplace).1
        exact (h.closes place hplace).imp_right fun hfree =>
          ⟨hfree.1, List.forall_mem_cons.2 ⟨hlt, hfree.2⟩⟩
      · exact absurd hne (by decide)
    · exact List.forall_mem_cons.2 ⟨hplaced.isWithin_length, h.apart⟩
  · rw [hread]
    exact h.pair hplaced hstack
  · rw [hread]
    refine ⟨fun place hplace => ?_, fun place hplace => ?_, h.apart⟩
    · rcases getElem?_concat_eq_some hplace with hplace | ⟨-, rfl⟩
      · exact h.opens place hplace
      · exact absurd rfl hopen
    · rcases getElem?_concat_eq_some hplace with hplace | ⟨rfl, heq⟩
      · exact h.closes place hplace
      · -- A closing bracket for which none waits.
        refine .inr ⟨hplaced.isWithin_length, fun start hstart => ?_⟩
        rw [hclose heq] at hstart
        cases hstart

theorem accounts_bracketPass (text : List Char) : (bracketPass text).Accounts text := by
  induction text using List.reverseRecOn with
  | nil =>
    exact ⟨fun _ h => absurd h (by simp), fun _ h => absurd h (by simp),
      fun _ h => absurd h List.not_mem_nil⟩
  | append_singleton text c ih =>
    rw [bracketPass_concat]
    exact ih.read (placed_bracketPass text) c

/-- **A bracket without a partner stands outside of all pairs.** -/
theorem IsUnmatched.isWithin_eq_false {text : List Char} {place : Nat} (h : IsUnmatched text place) :
    isWithin (bracketPass text).pairs place = false := by
  have haccounts := accounts_bracketPass text
  obtain ⟨hopen | hclose, hfree⟩ := h
  · rcases haccounts.opens place hopen with hwaits | ⟨pair, hpair, heq⟩
    · exact haccounts.apart place hwaits
    · exact absurd heq (hfree pair hpair).1
  · rcases haccounts.closes place hclose with ⟨pair, hpair, heq⟩ | ⟨houtside, -⟩
    · exact absurd heq (hfree pair hpair).2
    · exact houtside

/-! ### Texts on the stack -/

/-- What is kept of the beginning of a text. -/
structure CutBack where
  /-- What is kept so far. -/
  kept : List Char
  /-- What was kept before each opening bracket that waits for a partner, the last one first. -/
  earlier : List (List Char)

/-- The next character is kept, unless it has a partner: then everything since the partner is taken
back. -/
def CutBack.read (cut : CutBack) (c : Char) : CutBack :=
  if c = '<' then ⟨cut.kept ++ [c], cut.kept :: cut.earlier⟩
  else if c = '>' then
    match cut.earlier with
    | [] => ⟨cut.kept ++ [c], []⟩
    | before :: earlier => ⟨before, earlier⟩
  else ⟨cut.kept ++ [c], cut.earlier⟩

/-- What is kept of a text. -/
def cutBack (text : List Char) : CutBack := text.foldl CutBack.read ⟨[], []⟩

theorem CutBack.read_open (cut : CutBack) :
    cut.read '<' = ⟨cut.kept ++ ['<'], cut.kept :: cut.earlier⟩ :=
  if_pos rfl

theorem CutBack.read_close_nil (kept : List Char) :
    CutBack.read ⟨kept, []⟩ '>' = ⟨kept ++ ['>'], []⟩ := rfl

theorem CutBack.read_close_cons (kept before : List Char) (earlier : List (List Char)) :
    CutBack.read ⟨kept, before :: earlier⟩ '>' = ⟨before, earlier⟩ := rfl

theorem CutBack.read_plain {c : Char} (hopen : c ≠ '<') (hclose : c ≠ '>') (cut : CutBack) :
    cut.read c = ⟨cut.kept ++ [c], cut.earlier⟩ :=
  (if_neg hopen).trans (if_neg hclose)

/-- What the pairs of a pass leave of a text, and what they leave before each bracket that waits. -/
def BracketPass.leaves (pass : BracketPass) (text : List Char) : CutBack :=
  ⟨keepOutside pass.pairs text, pass.waiting.map fun place => keepOutside pass.pairs (text.take place)⟩

/-- **One character does the same to texts as to places.** -/
theorem BracketPass.Placed.leaves_read {pass : BracketPass} {text : List Char}
    (h : pass.Placed text.length) (c : Char) :
    (pass.read (c, text.length)).leaves (text ++ [c]) = (pass.leaves text).read c := by
  have hkept : keepOutside pass.pairs (text ++ [c]) = keepOutside pass.pairs text ++ [c] := by
    rw [keepOutside_concat, h.isWithin_length, if_neg Bool.false_ne_true]
  have htake : ∀ place ∈ pass.waiting, (text ++ [c]).take place = text.take place := fun place hplace =>
    List.take_append_of_le_length (Nat.le_of_lt (h.waiting_lt place hplace))
  have hearlier : (pass.waiting.map fun place => keepOutside pass.pairs ((text ++ [c]).take place)) =
      pass.waiting.map fun place => keepOutside pass.pairs (text.take place) :=
    List.map_congr_left fun place hplace => by rw [htake place hplace]
  obtain ⟨rfl, hread⟩ | ⟨start, waiting, rfl, hstack, hread⟩ | ⟨hopen, hclose, hread⟩ :=
    pass.read_cases c text.length
  · rw [hread, CutBack.read_open, BracketPass.leaves, BracketPass.leaves, hkept, List.map_cons, hearlier,
      List.take_left]
  · -- The new pair ends with the text, so all before its first bracket is left, and nothing else.
    have hlt := h.waiting_lt
    have hdescending := h.descending
    rw [hstack] at hlt hdescending htake
    have hstart := Nat.le_of_lt (hlt start List.mem_cons_self)
    have hbelow := (List.pairwise_cons.1 hdescending).1
    rw [hread, BracketPass.leaves, BracketPass.leaves, hstack, List.map_cons, CutBack.read_close_cons,
      keepOutside_cons_of_lt (by rw [List.length_append]; omega) (Nat.le_of_eq List.length_append),
      List.take_append_of_le_length hstart]
    refine congrArg (CutBack.mk _) (List.map_congr_left fun place hplace => ?_)
    have hle : (text.take place).length ≤ start :=
      Nat.le_trans (List.length_take_le place text) (Nat.le_of_lt (hbelow place hplace))
    rw [htake place (List.mem_cons_of_mem _ hplace), keepOutside_cons_of_le hle]
  · rw [hread, BracketPass.leaves, BracketPass.leaves, hkept, hearlier]
    by_cases hc : c = '>'
    · rw [hclose hc, hc]
      rfl
    · rw [CutBack.read_plain hopen hc]

/-- **Taking back keeps what the pairs leave.** -/
theorem cutBack_eq_leaves (text : List Char) : cutBack text = (bracketPass text).leaves text := by
  induction text using List.reverseRecOn with
  | nil => rfl
  | append_singleton text c ih =>
    rw [bracketPass_concat, (placed_bracketPass text).leaves_read, ← ih, cutBack, List.foldl_append]
    rfl

theorem kept_cutBack (text : List Char) : (cutBack text).kept = textOutside text := by
  rw [cutBack_eq_leaves]
  rfl

end SourceDoc
