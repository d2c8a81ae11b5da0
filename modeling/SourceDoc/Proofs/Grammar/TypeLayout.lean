import SourceDoc.Grammar.Types
import SourceDoc.Proofs.Grammar.Keeps

/-!
# Where types stand

The tokens of a type are words and dots, with type arguments in angle brackets and dimensions behind
them.  `Nested` says of a range that its angle and square brackets come in pairs, `ReferenceAt` and
`TypeAt` say which tokens a chain of names and a type were read from.
-/

namespace SourceDoc.Grammar

open SourceDoc.Tree SourceDoc.Grammar.Parser SourceDoc.Token

variable {α β : Type} {tokens : Array Token} {parse : Descend} {i j k : Nat}

/-! ### Ranges with paired brackets -/

/-- The texts that are no words of a type. -/
def notWords : List String := "<" :: ">" :: Gauge.fences

/-- A range of words, and of angle and square brackets that come in pairs. -/
inductive Nested (tokens : Array Token) : Nat → Nat → Prop where
  | nil (i : Nat) : Nested tokens i i
  | word {i j : Nat} {t : Token} (ht : tokens[i]? = some t) (hvalue : t.value ∉ notWords)
      (hrest : Nested tokens (i + 1) j) : Nested tokens i j
  | square {i j : Nat} (hopen : Stands tokens i "[") (hclose : Stands tokens (i + 1) "]")
      (hrest : Nested tokens (i + 2) j) : Nested tokens i j
  | angle {i j k : Nat} (hopen : Stands tokens i "<") (hwithin : Nested tokens (i + 1) k)
      (hclose : Stands tokens k ">") (hrest : Nested tokens (k + 1) j) : Nested tokens i j

theorem Nested.trans (h₁ : Nested tokens i j) (h₂ : Nested tokens j k) : Nested tokens i k := by
  induction h₁ with
  | nil => exact h₂
  | word ht hvalue _ ih => exact .word ht hvalue (ih h₂)
  | square hopen hclose _ ih => exact .square hopen hclose (ih h₂)
  | angle hopen hwithin hclose _ _ ih => exact .angle hopen hwithin hclose (ih h₂)

theorem Nested.ofWord {t : Token} (ht : tokens[i]? = some t) (hvalue : t.value ∉ notWords) :
    Nested tokens i (i + 1) := .word ht hvalue (.nil _)

theorem Stands.nested {value : String} (h : Stands tokens i value) (hvalue : value ∉ notWords) :
    Nested tokens i (i + 1) := by
  obtain ⟨t, ht, rfl⟩ := h
  exact .ofWord ht hvalue

theorem height_of_stands {m : Gauge} {value : String} (h : Stands tokens i value) :
    height m tokens (i + 1) = height m tokens i + m.weight value := by
  obtain ⟨t, ht, rfl⟩ := h
  exact height_succ ht

theorem notMem_fences_of_notWords {value : String} (h : value ∉ notWords) : value ∉ Gauge.fences :=
  fun hmem => h (List.mem_cons_of_mem _ (List.mem_cons_of_mem _ hmem))

/-- **Ranges with paired brackets end as high as they begin.** -/
theorem Nested.level (h : Nested tokens i j) (m : Gauge) :
    height m tokens j = height m tokens i := by
  have hangle : ∀ value ∈ ["<", ">"], m.weight value = 0 := by
    intro value hvalue
    refine Gauge.weight_of_notMem fun hmem => ?_
    revert hvalue hmem
    revert value
    decide
  induction h with
  | nil => rfl
  | word ht hvalue _ ih =>
    rw [ih, height_succ ht, Gauge.weight_of_notMem (notMem_fences_of_notWords hvalue), Int.add_zero]
  | square hopen hclose _ ih =>
    rw [ih, height_of_stands hclose, height_of_stands hopen, Gauge.weight_square,
      Gauge.weight_unsquare]
    omega
  | angle hopen _ hclose _ ihwithin ih =>
    rw [ih, height_of_stands hclose, ihwithin, height_of_stands hopen, hangle "<" (by decide),
      hangle ">" (by decide), Int.add_zero, Int.add_zero]

/-- Nothing is demanded of what stands in a range with paired brackets. -/
theorem Nested.rises (h : Nested tokens i j) (m : Gauge) : Rises m tokens i j := by
  have hword : ∀ {i : Nat} {value : String}, Stands tokens i value → value ∉ Gauge.fences →
      Rises m tokens i (i + 1) := by
    rintro i _ ⟨t, ht, rfl⟩ hvalue
    exact .word ht hvalue
  induction h with
  | nil i => exact .refl i
  | word ht hvalue _ ih => exact (Rises.word ht (notMem_fences_of_notWords hvalue)).trans ih
  | square hopen hclose _ ih =>
    refine Rises.trans ?_ ih
    obtain ⟨t, ht, hvalue⟩ := hopen
    obtain ⟨u, hu, hvalue'⟩ := hclose
    have hopen := Ground.Step.clear (g := ⟨m, height m tokens _, 0⟩)
      (by rw [hvalue]; exact Ground.step_square 0) (Int.le_of_eq (Int.add_zero _)) ht
    have hclose := Ground.Step.clear (by rw [hvalue']; exact Ground.step_unsquare 0) hopen.2 hu
    exact ⟨Nat.le_add_right _ 2, hopen.1.trans hclose.1,
      Int.le_trans (Int.le_of_eq (Int.add_zero _).symm) hclose.2⟩
  | angle hopen _ hclose _ ihwithin ih =>
    exact ((hword hopen (by decide)).trans ihwithin).trans ((hword hclose (by decide)).trans ih)

/-! ### Parsers of such ranges -/

/-- A parser that reads a range with paired brackets. -/
def Nests (tokens : Array Token) (p : Parser α) : Prop :=
  ∀ c, Ensures tokens p c fun _ c' => Nested tokens c.next c'.next

theorem nests_pure (v : α) : Nests tokens (pure v : Parser α) :=
  fun _ => ensures_pure (.nil _)

theorem Nests.bind {p : Parser α} {q : α → Parser β} (hp : Nests tokens p)
    (hq : ∀ v, Nests tokens (q v)) : Nests tokens (p >>= q) :=
  fun c => .bind fun v c' hrun => (hq v c').mono fun _ _ h => (hp c v c' hrun).trans h

theorem Nests.map {p : Parser α} {f : α → β} (hp : Nests tokens p) : Nests tokens (f <$> p) :=
  hp.bind fun v => show Nests tokens (pure (f v)) from nests_pure _

theorem Nests.ifPeek {p : Parser Bool} {q r : Parser α} (hp : Peeks p) (hq : Nests tokens q)
    (hr : Nests tokens r) : Nests tokens (do if ← p then q else r) :=
  fun c => .ifPeek hp (fun _ => hq c) (fun _ => hr c)

theorem nests_symbol {value : String} (hvalue : value ∉ notWords) :
    Nests tokens (symbol value) := by
  intro c v c' hrun
  obtain ⟨hstands, rfl⟩ := symbol_eq_done hrun
  exact hstands.nested hvalue

theorem Nests.ifTakesWord {value : String} {q r : Parser α} (hvalue : value ∉ notWords)
    (hq : Nests tokens q) (hr : Nests tokens r) :
    Nests tokens (do if ← takesText value then q else r) :=
  fun c => .ifTakesText
    (fun hstands => (hq _).mono fun _ _ h => (hstands.nested hvalue).trans h) (hr c)

theorem Links.nested {step : α → Parser (Option α)} {v : α} {vs : List α} {c c' : Cursor}
    (hstep : ∀ v, Nests tokens (step v)) (h : Links step tokens v c vs c') :
    Nested tokens c.next c'.next := by
  induction h with
  | last h => exact hstep _ _ _ _ h
  | next h _ ih => exact (hstep _ _ _ _ h).trans ih

theorem Nests.chain {step : α → Parser (Option α)} {first : α}
    (hstep : ∀ v, Nests tokens (step v)) : Nests tokens (chain step first) :=
  fun _ _ _ hrun => (links_of_chain hrun).nested hstep

theorem Nests.separated {separator : String} {item : Parser α} (hseparator : separator ∉ notWords)
    (hitem : Nests tokens item) : Nests tokens (separated separator item) :=
  hitem.bind fun _ => .chain fun _ =>
    .ifTakesWord hseparator (hitem.bind fun _ => nests_pure _) (nests_pure _)

/-- One round of a list: the closing token, or a comma and an item. -/
theorem ensures_listed_step {closer : String} {item : Parser α} (hitem : Nests tokens item)
    (c : Cursor) : Ensures tokens (do
      if ← takesText closer then return none
      symbol ","
      return some (← item)) c fun found c' =>
        (found = none → Stands tokens c.next closer ∧ c'.next = c.next + 1) ∧
        (found ≠ none → Nested tokens c.next c'.next) := by
  refine .ifTakesText (fun hstands => ensures_pure ?_) ?_
  · exact ⟨fun _ => ⟨hstands, rfl⟩, fun hne => absurd rfl hne⟩
  · refine .symbol fun hcomma => .bind fun v c₂ hrun => ensures_pure ⟨nofun, fun _ => ?_⟩
    exact (hcomma.nested (by decide)).trans (hitem _ _ _ hrun)

/-- Items between commas, and the closing token behind them. -/
theorem ensures_listed {closer : String} {item : Parser α} (hitem : Nests tokens item)
    (c : Cursor) : Ensures tokens (listed closer item) c fun vs c' => vs ≠ [] ∧
      ∃ k, Nested tokens c.next k ∧ Stands tokens k closer ∧ c'.next = k + 1 := by
  refine .bind fun first c₁ hfirst vs c' hrun => ?_
  suffices hrest : vs ≠ [] ∧ ∃ k, Nested tokens c₁.next k ∧ Stands tokens k closer ∧
      c'.next = k + 1 by
    obtain ⟨hne, k, hnested, hrest⟩ := hrest
    exact ⟨hne, k, (hitem _ _ _ hfirst).trans hnested, hrest⟩
  have hlinks := links_of_chain hrun
  clear hrun hfirst
  induction hlinks with
  | last h =>
    obtain ⟨hstands, hnext⟩ := (ensures_listed_step hitem _ _ _ h).1 rfl
    exact ⟨List.cons_ne_nil _ _, _, .nil _, hstands, hnext⟩
  | next h _ ih =>
    obtain ⟨-, k, hnested, hrest⟩ := ih
    exact ⟨List.cons_ne_nil _ _, k,
      ((ensures_listed_step hitem _ _ _ h).2 nofun).trans hnested, hrest⟩

/-- Items between commas in angle brackets. -/
theorem ensures_listed_angle {item : Parser α} (hitem : Nests tokens item) (c : Cursor) :
    Ensures tokens (do symbol "<"; listed ">" item) c fun vs c' => vs ≠ [] ∧
      Stands tokens c.next "<" ∧
      ∃ k, Nested tokens (c.next + 1) k ∧ Stands tokens k ">" ∧ c'.next = k + 1 :=
  .symbol fun hopen => (ensures_listed hitem _).mono fun _ _ h => ⟨h.1, hopen, h.2⟩

theorem nests_listed_angle {item : Parser α} (hitem : Nests tokens item) :
    Nests tokens (do symbol "<"; listed ">" item) := by
  refine fun c => (ensures_listed_angle hitem c).mono ?_
  rintro _ c' ⟨-, hopen, k, hwithin, hclose, hnext⟩
  rw [hnext]
  exact .angle hopen hwithin hclose (.nil _)

/-! ### Names, chains and types -/

/-- So many pairs of square brackets stand at a place. -/
def Pairs (tokens : Array Token) (i : Nat) : Nat → Prop
  | 0 => True
  | n + 1 => Stands tokens i "[" ∧ Stands tokens (i + 1) "]" ∧ Pairs tokens (i + 2) n

/-- A name of a chain stands at a place, with its type arguments. -/
inductive SegmentAt (tokens : Array Token) : Nat → Segment → Nat → Prop where
  | plain {i : Nat} {t : Token} (ht : tokens[i]? = some t) (hcls : t.cls = .identifier) :
      SegmentAt tokens i (.mk t.value []) (i + 1)
  | generic {i k : Nat} {t : Token} {args : List TypeArgument} (ht : tokens[i]? = some t)
      (hcls : t.cls = .identifier) (hargs : args ≠ []) (hopen : Stands tokens (i + 1) "<")
      (hwithin : Nested tokens (i + 2) k) (hclose : Stands tokens k ">") :
      SegmentAt tokens i (.mk t.value args) (k + 1)

/-- A chain of names stands at a place. -/
inductive ReferenceAt (tokens : Array Token) : Nat → List Segment → Nat → Prop where
  | last {i j : Nat} {s : Segment} (h : SegmentAt tokens i s j) : ReferenceAt tokens i [s] j
  | dot {i j k : Nat} {s : Segment} {rest : List Segment} (h : SegmentAt tokens i s k)
      (hdot : Stands tokens k ".") (hrest : ReferenceAt tokens (k + 1) rest j) :
      ReferenceAt tokens i (s :: rest) j

/-- A type stands at a place. -/
def TypeAt (tokens : Array Token) (i : Nat) : TypeRef → Nat → Prop
  | .basic _ n, j => ∃ t, tokens[i]? = some t ∧ t.cls = .basicType ∧ Pairs tokens (i + 1) n ∧
      j = i + 1 + 2 * n
  | .named segments n, j => ∃ k, ReferenceAt tokens i segments k ∧ Pairs tokens k n ∧ j = k + 2 * n

theorem Pairs.nested {n : Nat} (h : Pairs tokens i n) : Nested tokens i (i + 2 * n) := by
  induction n generalizing i with
  | zero => exact .nil i
  | succ n ih =>
    obtain ⟨hopen, hclose, hrest⟩ := h
    rw [show i + 2 * (n + 1) = i + 2 + 2 * n by omega]
    exact .square hopen hclose (ih hrest)

section
variable (hproper : ∀ t ∈ tokens, Proper t)
include hproper

/-- Words of the language and names are words of a type. -/
theorem value_notMem_notWords {t : Token} (ht : tokens[i]? = some t)
    (hcls : t.cls ∈ [TokenClass.identifier, .modifier, .basicType]) : t.value ∉ notWords := by
  obtain ⟨ch, hhead, hstart⟩ := (hproper t (Array.mem_of_getElem? ht)).start hcls
  have hall : ∀ v ∈ notWords, v.toList.head?.any isIdentifierStart = false := by decide
  intro hmem
  have hnot := hall _ hmem
  rw [hhead, Option.any_some, hstart] at hnot
  cases hnot

theorem nested_of_class {t : Token} (ht : tokens[i]? = some t)
    (hcls : t.cls ∈ [TokenClass.identifier, .modifier, .basicType]) :
    Nested tokens i (i + 1) :=
  .ofWord ht (value_notMem_notWords hproper ht hcls)

theorem SegmentAt.nested {s : Segment} (h : SegmentAt tokens i s j) : Nested tokens i j := by
  cases h with
  | plain ht hcls => exact nested_of_class hproper ht (by rw [hcls]; decide)
  | generic ht hcls _ hopen hwithin hclose =>
    exact (nested_of_class hproper ht (by rw [hcls]; decide)).trans
      (.angle hopen hwithin hclose (.nil _))

theorem ReferenceAt.nested {segments : List Segment} (h : ReferenceAt tokens i segments j) :
    Nested tokens i j := by
  induction h with
  | last h => exact h.nested hproper
  | dot h hdot _ ih => exact ((h.nested hproper).trans (hdot.nested (by decide))).trans ih

theorem TypeAt.nested {type : TypeRef} (h : TypeAt tokens i type j) : Nested tokens i j := by
  cases type with
  | basic name n =>
    obtain ⟨t, ht, hcls, hpairs, rfl⟩ := h
    exact (nested_of_class hproper ht (by rw [hcls]; decide)).trans hpairs.nested
  | named segments n =>
    obtain ⟨k, href, hpairs, rfl⟩ := h
    exact (href.nested hproper).trans hpairs.nested

theorem nests_expect {cls : TokenClass}
    (hcls : cls ∈ [TokenClass.identifier, .modifier, .basicType]) :
    Nests tokens (expect (.ofClass cls)) := by
  intro c v c' hrun
  obtain ⟨t, ht, hfits, -, rfl⟩ := expect_eq_done hrun
  exact nested_of_class hproper ht (by rwa [beq_iff_eq.1 hfits])

theorem nests_identifier : Nests tokens identifier := nests_expect hproper (by decide)

theorem nests_basicType : Nests tokens basicType := nests_expect hproper (by decide)

end

/-! ### What the parsers of types read -/

theorem ensures_dimensions (c : Cursor) : Ensures tokens dimensions c fun n c' =>
    Pairs tokens c.next n ∧ c'.next = c.next + 2 * n := by
  refine .bind fun pairs c₁ hrun => ensures_pure ?_
  have hstep : ∀ c, Ensures tokens
      (do if ← takes [.text "[", .text "]"] then return some () else return none) c fun found c' =>
        (found = none → c'.next = c.next) ∧ (found ≠ none →
          Stands tokens c.next "[" ∧ Stands tokens (c.next + 1) "]" ∧ c'.next = c.next + 2) := by
    refine fun c => .ifTakes (fun hfits => ensures_pure ⟨nofun, fun _ => ?_⟩)
      (fun _ => ensures_pure ⟨fun _ => rfl, fun hne => absurd rfl hne⟩)
    obtain ⟨hopen, hfits⟩ := exists_of_fitsFrom_text hfits
    exact ⟨hopen, (exists_of_fitsFrom_text hfits).1, rfl⟩
  have hrounds := rounds_of_collect hrun
  clear hrun
  induction hrounds with
  | last h => exact ⟨trivial, (hstep _ _ _ h).1 rfl⟩
  | next h _ ih =>
    obtain ⟨hopen, hclose, hnext⟩ := (hstep _ _ _ h).2 nofun
    rw [hnext] at ih
    exact ⟨⟨hopen, hclose, ih.1⟩, by rw [ih.2, List.length_cons]; omega⟩

theorem nests_dimensions : Nests tokens dimensions := by
  intro c v c' hrun
  obtain ⟨hpairs, hnext⟩ := ensures_dimensions c v c' hrun
  rw [hnext]
  exact hpairs.nested

section
variable (hproper : ∀ t ∈ tokens, Proper t)
  (hreference : ∀ c, Ensures tokens (parse .reference) c fun segments c' =>
    ReferenceAt tokens c.next segments c'.next)
include hproper hreference

theorem nests_parse_reference : Nests tokens (parse .reference) :=
  fun c => (hreference c).mono fun _ _ h => h.nested hproper

omit hproper in
theorem ensures_type (c : Cursor) : Ensures tokens (type parse) c fun type c' =>
    TypeAt tokens c.next type c'.next := by
  refine .ifPeek (peeks_seesClass _) (fun _ => ?_) fun _ => ?_
  · refine .expect fun t ht hfits => .bind fun n c' hrun => ensures_pure ?_
    obtain ⟨hpairs, hnext⟩ := ensures_dimensions _ _ _ hrun
    exact ⟨t, ht, beq_iff_eq.1 hfits, hpairs, hnext⟩
  · refine .ifPeek (peeks_seesClass _) (fun _ => ?_) (fun _ => ensures_refuse _)
    refine .bind fun segments c₁ href => .bind fun n c' hrun => ensures_pure ?_
    obtain ⟨hpairs, hnext⟩ := ensures_dimensions _ _ _ hrun
    exact ⟨c₁.next, hreference _ _ _ href, hpairs, hnext⟩

theorem nests_type : Nests tokens (type parse) :=
  fun c => (ensures_type hreference c).mono fun _ _ h => h.nested hproper

theorem nests_objectType : Nests tokens (objectType parse) := by
  refine .ifPeek (peeks_seesClass _) ?_ ?_
  · refine (nests_basicType hproper).bind fun _ => ?_
    refine fun c => .symbol fun hopen => .symbol fun hclose => .bind fun n c' hrun => ensures_pure ?_
    exact .square hopen hclose (nests_dimensions _ _ _ hrun)
  · exact (nests_parse_reference hproper hreference).bind fun _ =>
      nests_dimensions.bind fun _ => nests_pure _

theorem nests_typeArgument : Nests tokens (typeArgument parse) := by
  have hobject : ∀ {f : TypeRef → TypeArgument}, Nests tokens (do return f (← objectType parse)) :=
    (nests_objectType hproper hreference).bind fun _ => nests_pure _
  refine .ifTakesWord (by decide) ?_ hobject
  exact .ifTakesWord (by decide) hobject (.ifTakesWord (by decide) hobject (nests_pure _))

theorem ensures_segment (c : Cursor) : Ensures tokens (segment parse) c fun s c' =>
    SegmentAt tokens c.next s c'.next := by
  refine .expect fun t ht hfits => .ifPeek (peeks_seesText _) (fun _ => ?_) fun _ => ?_
  · refine .bind fun args c' hrun => ensures_pure ?_
    obtain ⟨hargs, hopen, k, hwithin, hclose, hnext⟩ :=
      ensures_listed_angle (nests_typeArgument hproper hreference) _ _ _ hrun
    rw [hnext]
    exact .generic ht (beq_iff_eq.1 hfits) hargs hopen hwithin hclose
  · exact ensures_pure (.plain ht (beq_iff_eq.1 hfits))

/-- **A chain of names is read from a chain of names.** -/
theorem ensures_reference (c : Cursor) : Ensures tokens (reference parse) c fun segments c' =>
    ReferenceAt tokens c.next segments c'.next := by
  refine .bind fun first c₁ hfirst segments c' hrun => ?_
  have hsegment := ensures_segment hproper hreference c _ _ hfirst
  have hlinks := links_of_chain hrun
  clear hrun hfirst
  generalize c.next = i at hsegment ⊢
  -- The induction is on the rounds of the chain; the name before the dot is passed on to it.
  induction hlinks generalizing i with
  | last h =>
    rw [(ensures_next _ _ h).1 rfl]
    exact .last hsegment
  | next h _ ih =>
    obtain ⟨hdot, hrun⟩ := (ensures_next _ _ h).2 _ rfl
    exact .dot hsegment hdot (ih _ (ensures_segment hproper hreference _ _ _ hrun))

theorem nests_typeList : Nests tokens (typeList parse) :=
  .separated (by decide) (nests_objectType hproper hreference)

theorem nests_typeParameter : Nests tokens (typeParameter parse) := by
  refine (nests_identifier hproper).bind fun _ => .ifTakesWord (by decide) ?_ (nests_pure _)
  exact (Nests.separated (by decide) (nests_parse_reference hproper hreference)).bind
    fun _ => nests_pure _

theorem nests_typeParameters? : Nests tokens (typeParameters? parse) :=
  .ifPeek (peeks_seesText _) (nests_listed_angle (nests_typeParameter hproper hreference))
    (nests_pure _)

end

end SourceDoc.Grammar
