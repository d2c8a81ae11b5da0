import SourceDoc.Grammar.Parser
import SourceDoc.Proofs.Token.Reading
import Mathlib.Data.List.Basic

/-!
# Heights

How deep a place in a token list stands in brackets is told by its height: the brackets opened before
it, less those closed.  A gauge says which kinds of brackets count, and what height it demands of the
braces and semicolons on the way, so that one statement about a parser serves several counts.

A ground fixes a gauge and a base; places are compared with the base by `Ground.Above`, and a range
of tokens is `Ground.Clear` if all of it lies above the base, its braces and semicolons as high as is
demanded.
-/

namespace SourceDoc.Grammar

open SourceDoc.Grammar.Parser SourceDoc.Token

/-! ### Gauges -/

/-- Which brackets count, and the heights that are demanded of semicolons and opening braces.  What
stands in parentheses or in braces is high enough for what may stand there. -/
structure Gauge where
  /-- What a parenthesis counts. -/
  round : Nat
  /-- What a square bracket counts. -/
  square : Nat
  /-- What a brace counts. -/
  curly : Nat
  /-- The height that is demanded of a semicolon. -/
  semicolon : Nat
  /-- The height that is demanded of an opening brace. -/
  brace : Nat
  /-- In parentheses there may be braces. -/
  brace_le : brace ≤ round
  /-- In braces there may be semicolons. -/
  semicolon_le : semicolon ≤ brace + curly

namespace Gauge

/-- The texts of the tokens that a gauge may count or make demands of. -/
def fences : List String := ["(", ")", "[", "]", openBrace, closeBrace, ";"]

/-- What a token with this text adds to the height. -/
def weight (m : Gauge) (value : String) : Int :=
  if value = "(" then m.round
  else if value = ")" then -m.round
  else if value = "[" then m.square
  else if value = "]" then -m.square
  else if value = openBrace then m.curly
  else if value = closeBrace then -m.curly
  else 0

/-- The height that is demanded of a token with this text. -/
def demand (m : Gauge) (value : String) : Nat :=
  if value = ";" then m.semicolon else if value = openBrace then m.brace else 0

variable {m : Gauge} {value : String}

@[simp] theorem weight_round : m.weight "(" = m.round := rfl

@[simp] theorem weight_unround : m.weight ")" = -m.round := rfl

@[simp] theorem weight_square : m.weight "[" = m.square := rfl

@[simp] theorem weight_unsquare : m.weight "]" = -m.square := rfl

@[simp] theorem weight_openBrace : m.weight openBrace = m.curly := rfl

@[simp] theorem weight_closeBrace : m.weight closeBrace = -m.curly := rfl

@[simp] theorem weight_semicolon : m.weight ";" = 0 := rfl

theorem weight_of_notMem (h : value ∉ fences) : m.weight value = 0 := by
  simp only [fences, List.mem_cons, List.not_mem_nil, or_false, not_or] at h
  obtain ⟨h1, h2, h3, h4, h5, h6, -⟩ := h
  rw [weight, if_neg h1, if_neg h2, if_neg h3, if_neg h4, if_neg h5, if_neg h6]

theorem demand_of_notMem (h : value ∉ fences) : m.demand value = 0 := by
  simp only [fences, List.mem_cons, List.not_mem_nil, or_false, not_or] at h
  obtain ⟨-, -, -, -, h5, -, h7⟩ := h
  rw [demand, if_neg h7, if_neg h5]

end Gauge

/-- A token of another class than the separators is not counted, and nothing is demanded of it. -/
theorem value_notMem_fences {t : Token} (hproper : Proper t) (hcls : t.cls ≠ .separator) :
    t.value ∉ Gauge.fences := by
  intro hmem
  refine hcls (hproper.mark ?_)
  have hsub : ∀ v ∈ Gauge.fences, v ∈ marks.map String.singleton := by decide
  exact hsub _ hmem

/-! ### Heights -/

/-- The brackets opened before a place, less those closed. -/
def height (m : Gauge) (tokens : Array Token) (i : Nat) : Int :=
  (tokens.toList.take i).foldl (fun h t => h + m.weight t.value) 0

theorem height_succ {m : Gauge} {tokens : Array Token} {i : Nat} {t : Token}
    (h : tokens[i]? = some t) : height m tokens (i + 1) = height m tokens i + m.weight t.value := by
  rw [← Array.getElem?_toList] at h
  rw [height, height, List.take_add_one, h, List.foldl_append]
  rfl

/-! ### Grounds -/

/-- A gauge and a base to compare heights with.  The floor is the height that parsing goes back to
at the least. -/
structure Ground where
  /-- What counts. -/
  gauge : Gauge
  /-- The height that others are compared with. -/
  base : Int
  /-- How far above the base the places are that an attempt goes back to. -/
  floor : Nat

namespace Ground

variable (g : Ground) (tokens : Array Token)

/-- A place lies this far above the base. -/
def Above (a i : Nat) : Prop := g.base + a ≤ height g.gauge tokens i

/-- A range of tokens lies above the base, its semicolons and opening braces as high as demanded. -/
def Clear (i j : Nat) : Prop :=
  ∀ k, i ≤ k → k < j → ∃ t, tokens[k]? = some t ∧
    g.base + g.gauge.demand t.value ≤ height g.gauge tokens k

/-- What reading a token with this text needs and gives: from a place this far above the base to one
that far. -/
def Step (value : String) (a b : Nat) : Prop :=
  g.gauge.demand value ≤ a ∧ (b : Int) ≤ a + g.gauge.weight value

variable {g tokens}

theorem Above.mono {a b i : Nat} (h : g.Above tokens a i) (hb : b ≤ a) : g.Above tokens b i := by
  unfold Above at *
  omega

theorem Clear.refl (i : Nat) : g.Clear tokens i i := fun _ _ _ => by omega

theorem Clear.trans {i j k : Nat} (h₁ : g.Clear tokens i j) (h₂ : g.Clear tokens j k) :
    g.Clear tokens i k := by
  intro n hi hk
  rcases Nat.lt_or_ge n j with hj | hj
  · exact h₁ n hi hj
  · exact h₂ n hj hk

theorem Clear.mono {i j i' j' : Nat} (h : g.Clear tokens i j) (hi : i ≤ i') (hj : j' ≤ j) :
    g.Clear tokens i' j' :=
  fun k hik hkj => h k (hi.trans hik) (Nat.lt_of_lt_of_le hkj hj)

/-- Reading one token. -/
theorem Step.clear {a b i : Nat} {t : Token} (hstep : g.Step t.value a b) (ha : g.Above tokens a i)
    (ht : tokens[i]? = some t) : g.Clear tokens i (i + 1) ∧ g.Above tokens b (i + 1) := by
  unfold Above at *
  obtain ⟨hdemand, hweight⟩ := hstep
  constructor
  · intro k hik hki
    obtain rfl : k = i := by omega
    exact ⟨t, ht, by omega⟩
  · rw [height_succ ht]
    omega

theorem step_of_notMem {value : String} (h : value ∉ Gauge.fences) (a : Nat) : g.Step value a a := by
  rw [Step, Gauge.weight_of_notMem h, Gauge.demand_of_notMem h]
  omega

theorem step_round (a : Nat) : g.Step "(" a (a + g.gauge.round) :=
  ⟨Nat.zero_le _, by rw [Gauge.weight_round]; omega⟩

theorem step_unround (a : Nat) : g.Step ")" (a + g.gauge.round) a :=
  ⟨Nat.zero_le _, by rw [Gauge.weight_unround]; omega⟩

theorem step_square (a : Nat) : g.Step "[" a (a + g.gauge.square) :=
  ⟨Nat.zero_le _, by rw [Gauge.weight_square]; omega⟩

theorem step_unsquare (a : Nat) : g.Step "]" (a + g.gauge.square) a :=
  ⟨Nat.zero_le _, by rw [Gauge.weight_unsquare]; omega⟩

theorem step_brace {a : Nat} (h : g.gauge.brace ≤ a) : g.Step openBrace a (a + g.gauge.curly) :=
  ⟨h, by rw [Gauge.weight_openBrace]; omega⟩

theorem step_unbrace (a : Nat) : g.Step closeBrace (a + g.gauge.curly) a :=
  ⟨Nat.zero_le _, by rw [Gauge.weight_closeBrace]; omega⟩

theorem step_semicolon {a : Nat} (h : g.gauge.semicolon ≤ a) : g.Step ";" a a :=
  ⟨h, by rw [Gauge.weight_semicolon]; omega⟩

end Ground

/-! ### Ranges -/

/-- A range of tokens that is clear above its start, and ends no lower. -/
structure Rises (m : Gauge) (tokens : Array Token) (i j : Nat) : Prop where
  /-- The range may be empty. -/
  le : i ≤ j
  /-- What stands there is as high above the start as demanded. -/
  clear : (⟨m, height m tokens i, 0⟩ : Ground).Clear tokens i j
  /-- The end is no lower than the start. -/
  above : height m tokens i ≤ height m tokens j

namespace Rises

variable {m : Gauge} {tokens : Array Token} {i j k : Nat}

theorem refl (i : Nat) : Rises m tokens i i := ⟨le_rfl, .refl i, Int.le_refl _⟩

theorem trans (h₁ : Rises m tokens i j) (h₂ : Rises m tokens j k) : Rises m tokens i k := by
  refine ⟨h₁.le.trans h₂.le, h₁.clear.trans fun n hlo hhi => ?_, Int.le_trans h₁.above h₂.above⟩
  obtain ⟨t, ht, hdemand⟩ := h₂.clear n hlo hhi
  have := h₁.above
  exact ⟨t, ht, by dsimp only at hdemand ⊢; omega⟩

/-- A token that is no fence. -/
theorem word {t : Token} (ht : tokens[i]? = some t) (hvalue : t.value ∉ Gauge.fences) :
    Rises m tokens i (i + 1) := by
  refine ⟨Nat.le_succ i, fun n hlo hhi => ?_, ?_⟩
  · obtain rfl : n = i := by omega
    exact ⟨t, ht, by rw [Gauge.demand_of_notMem hvalue]; exact Int.le_of_eq (Int.add_zero _)⟩
  · rw [height_succ ht, Gauge.weight_of_notMem hvalue]
    omega

end Rises

/-- A range of tokens that does not leave the bracket that it begins in: it is clear above that bracket,
and ends no lower than it begins. -/
structure Remains (m : Gauge) (tokens : Array Token) (i j : Nat) : Prop where
  /-- The range may be empty. -/
  le : i ≤ j
  /-- What stands there is as high above the bracket as demanded. -/
  clear : (⟨m, height m tokens i - 1, 0⟩ : Ground).Clear tokens i j
  /-- The end is no lower than the start. -/
  above : height m tokens i ≤ height m tokens j

namespace Remains

variable {m : Gauge} {tokens : Array Token} {i j k : Nat}

theorem refl (i : Nat) : Remains m tokens i i := ⟨le_rfl, .refl i, Int.le_refl _⟩

theorem trans (h₁ : Remains m tokens i j) (h₂ : Remains m tokens j k) : Remains m tokens i k := by
  refine ⟨h₁.le.trans h₂.le, h₁.clear.trans fun n hlo hhi => ?_, Int.le_trans h₁.above h₂.above⟩
  obtain ⟨t, ht, hdemand⟩ := h₂.clear n hlo hhi
  have := h₁.above
  exact ⟨t, ht, by dsimp only at hdemand ⊢; omega⟩

end Remains

end SourceDoc.Grammar
