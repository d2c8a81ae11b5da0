import SourceDoc.Proofs.Grammar.Annotations
import SourceDoc.Proofs.Grammar.TypeLayout
import SourceDoc.Proofs.Span.Partners

/-!
# Where annotations stand

An annotation is an at sign and a name, and then, if it is given something, parentheses with a value or
with named values in them.  `UseAt` says which tokens these are.  No parenthesis stands before the one
that opens what an annotation is given (`Nested.ne_round`), and in what it is given no more parentheses
are closed than opened.
-/

namespace SourceDoc.Grammar

open SourceDoc.Tree SourceDoc.Grammar.Parser SourceDoc.Token

/-! ### Layout -/

/-- A named value stands between two places. -/
structure PairAt (tokens : Array Token) (i : Nat) (pair : ElementPair) (j : Nat) : Prop where
  /-- Its name comes first. -/
  name : ∃ t, tokens[i]? = some t ∧ t.value = pair.name ∧ pair.position = some t.position
  /-- An equals sign follows. -/
  equals : Stands tokens (i + 1) "="
  /-- The value is the rest. -/
  value : pair.value = ⟨i + 2, j⟩

/-- Named values stand between two places, with commas between them. -/
inductive PairsAt (tokens : Array Token) : Nat → List ElementPair → Nat → Prop where
  | last {i j : Nat} {pair : ElementPair} (h : PairAt tokens i pair j) : PairsAt tokens i [pair] j
  | more {i j k : Nat} {pair : ElementPair} {pairs : List ElementPair} (h : PairAt tokens i pair k)
      (hcomma : Stands tokens k ",") (hrest : PairsAt tokens (k + 1) pairs j) :
      PairsAt tokens i (pair :: pairs) j

/-- What an annotation is given stands between two places. -/
inductive ElementAt (tokens : Array Token) : Nat → Element → Nat → Prop where
  | single (i j : Nat) : ElementAt tokens i (.single ⟨i, j⟩) j
  | pairs {i j : Nat} {pairs : List ElementPair} (h : PairsAt tokens i pairs j) :
      ElementAt tokens i (.pairs pairs) j

/-- An annotation stands between two places. -/
inductive UseAt (tokens : Array Token) : Nat → AnnotationUse → Nat → Prop where
  | marker {i j : Nat} {t : Token} {name : String} (ht : tokens[i]? = some t)
      (hname : Nested tokens i j) : UseAt tokens i ⟨name, some t.position, .absent⟩ j
  | empty {i k : Nat} {t : Token} {name : String} (ht : tokens[i]? = some t)
      (hname : Nested tokens i k) (hopen : Stands tokens k "(") (hclose : Stands tokens (k + 1) ")") :
      UseAt tokens i ⟨name, some t.position, .absent⟩ (k + 2)
  | given {i j k : Nat} {t : Token} {name : String} {element : Element} (ht : tokens[i]? = some t)
      (hname : Nested tokens i k) (hopen : Stands tokens k "(")
      (helement : ElementAt tokens (k + 1) element j) (hclose : Stands tokens j ")")
      (hrises : Rises (.ofOpener "(") tokens (k + 1) j) :
      UseAt tokens i ⟨name, some t.position, element⟩ (j + 1)

variable {tokens : Array Token} {parse : Descend} {i j : Nat}

theorem UseAt.position {use : AnnotationUse} (h : UseAt tokens i use j) :
    use.position = tokens[i]?.map (·.position) := by
  cases h with
  | marker ht => rw [ht]; rfl
  | empty ht => rw [ht]; rfl
  | given ht => rw [ht]; rfl

/-- The places of names are those of tokens. -/
theorem PairsAt.exists_token {pairs : List ElementPair}
    (h : PairsAt tokens i pairs j) :
    ∀ pair ∈ pairs, ∃ (k : Nat) (t : Token), tokens[k]? = some t ∧ pair.position = some t.position := by
  have hpair : ∀ {i j : Nat} {pair : ElementPair}, PairAt tokens i pair j →
      ∃ (k : Nat) (t : Token), tokens[k]? = some t ∧ pair.position = some t.position := by
    intro i j pair hat
    obtain ⟨t, ht, -, hposition⟩ := hat.name
    exact ⟨i, t, ht, hposition⟩
  induction h with
  | last h => exact List.forall_mem_singleton.2 (hpair h)
  | more h _ _ ih => exact List.forall_mem_cons.2 ⟨hpair h, ih⟩

/-- **No parenthesis stands among words and paired brackets.** -/
theorem Nested.ne_round (h : Nested tokens i j) :
    ∀ k, i ≤ k → k < j → ∃ t, tokens[k]? = some t ∧ t.value ≠ "(" := by
  have hstands : ∀ {k : Nat} {value : String}, Stands tokens k value → value ≠ "(" →
      ∃ t, tokens[k]? = some t ∧ t.value ≠ "(" := by
    rintro k _ ⟨t, ht, rfl⟩ hne
    exact ⟨t, ht, hne⟩
  induction h with
  | nil => exact fun k hlo hhi => by omega
  | @word i j t ht hvalue _ ih =>
    intro k hlo hhi
    rcases Nat.eq_or_lt_of_le hlo with rfl | hlo
    · refine ⟨t, ht, fun heq => hvalue ?_⟩
      rw [heq]
      decide
    · exact ih k hlo hhi
  | @square i j hopen hclose _ ih =>
    intro k hlo hhi
    rcases Nat.eq_or_lt_of_le hlo with rfl | hlo
    · exact hstands hopen (by decide)
    rcases Nat.eq_or_lt_of_le hlo with rfl | hlo
    · exact hstands hclose (by decide)
    · exact ih k hlo hhi
  | @angle i j m hopen _ hclose _ ihwithin ih =>
    intro k hlo hhi
    rcases Nat.eq_or_lt_of_le hlo with rfl | hlo
    · exact hstands hopen (by decide)
    rcases Nat.lt_trichotomy k m with hlt | rfl | hgt
    · exact ihwithin k hlo hlt
    · exact hstands hclose (by decide)
    · exact ih k hgt hhi

/-! ### What the parsers of annotations read -/

theorem ensures_elementPair (c : Cursor) : Ensures tokens (elementPair parse) c fun pair c' =>
    PairAt tokens c.next pair c'.next := by
  refine .peek peeks_here fun position hposition => .expect fun t ht _ => .symbol fun hequals => ?_
  cases hposition
  refine .measured fun v c' _ => ensures_pure ⟨⟨t, ht, rfl, ?_⟩, hequals, rfl⟩
  rw [ht]
  rfl

theorem ensures_elementPairs (c : Cursor) :
    Ensures tokens (separated "," (elementPair parse)) c fun pairs c' =>
      PairsAt tokens c.next pairs c'.next := by
  refine .bind fun first c₁ hfirst pairs c' hrun => ?_
  have hpair := ensures_elementPair c _ _ hfirst
  have hlinks := links_of_chain hrun
  clear hrun hfirst
  generalize c.next = i at hpair ⊢
  -- The induction is on the rounds of the chain; the pair before the comma is passed on to it.
  induction hlinks generalizing i with
  | last h =>
    rw [(ensures_next _ _ h).1 rfl]
    exact .last hpair
  | next h _ ih =>
    obtain ⟨hcomma, hrun⟩ := (ensures_next _ _ h).2 _ rfl
    exact .more hpair hcomma (ih _ (ensures_elementPair _ _ _ hrun))

theorem ensures_element (c : Cursor) : Ensures tokens (element parse) c fun element c' =>
    ElementAt tokens c.next element c'.next := by
  refine .ifPeek (peeks_sees _) (fun _ => ?_) fun _ => ?_
  · exact .bind fun pairs c' hrun => ensures_pure (.pairs (ensures_elementPairs _ _ _ hrun))
  · exact .measured fun v c' _ => ensures_pure (.single c.next c'.next)

/-- **An annotation is read from an annotation.** -/
theorem ensures_annotationUse (hp : Kept tokens parse) (c : Cursor) :
    Ensures tokens (annotationUse parse) c fun use c' => UseAt tokens c.next use c'.next := by
  refine .peek peeks_here fun position hposition => .symbol fun hsign => .bind fun name c₁ hrun => ?_
  cases hposition
  obtain ⟨t, ht, hvalue⟩ := hsign
  have hname : Nested tokens c.next c₁.next := by
    have hqualified : Nests tokens qualifiedName :=
      (Nests.separated (by decide) (nests_identifier hp.proper)).bind fun _ => nests_pure _
    exact .word ht (by rw [hvalue]; decide) (hqualified _ _ _ hrun)
  rw [ht]
  refine .ifTakesText (fun hopen => ?_) (ensures_pure (.marker ht hname))
  refine .ifTakesText (fun hclose => ensures_pure (.empty ht hname hopen hclose)) ?_
  refine .bind fun element c₂ helement => .symbol fun hclose => ensures_pure ?_
  exact .given ht hname hopen (ensures_element _ _ _ helement) hclose
    ((keeps_element hp le_rfl le_rfl).rises helement)

end SourceDoc.Grammar
