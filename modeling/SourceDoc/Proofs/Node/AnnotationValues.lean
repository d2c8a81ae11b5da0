import SourceDoc.Proofs.Node.Loading

/-!
# The tokens that the values of annotations are cut from

The texts of the values of an annotation are cut from ranges of tokens (`AnnotationUse.ranges`) that are
found anew: the first parenthesis behind the place of the annotation, its partner, and the places of the
names.  A value ends in front of the comma before the next name, and the last one at the partner of the
parenthesis.

All starts are those of the values that were read, and so are all ends but the last, which is not too
early.  It is the right one just if the parentheses in what the annotation is given are closed there
(`annotationRanges_eq_extents_iff`); the other brackets, commas and further annotations do not matter.
The grammar accepts values that leave parentheses open, because a failed attempt may give back less than
it has read.
-/

namespace SourceDoc.Tree

open SourceDoc.TokenText SourceDoc.Grammar SourceDoc.Token

/-! ### Ranges -/

/-- The first and the last token of a value without a name and of named values. -/
structure AnnotationRanges where
  /-- The range of a value without a name. -/
  value : Option (Int × Int)
  /-- The names and ranges of named values. -/
  pairs : List (String × Int × Int)
  deriving DecidableEq

/-- The ranges of named values.  Each ends before the comma in front of the next name, and the last at
`last`. -/
def pairRanges (last : Int) : List (ElementPair × Int) → List (String × Int × Int)
  | [] => []
  | (pair, start) :: rest =>
    (pair.name, start + 2, (rest.head?.map (·.2 - 2)).getD last) :: pairRanges last rest

/-- The ranges that the texts of an annotation are cut from. -/
def AnnotationUse.ranges (src : TokenText) (a : AnnotationUse) : Except SpanFault AnnotationRanges :=
  match a.element with
  | .absent => .ok ⟨none, []⟩
  | .single _ => do
    let range ← valueRange src a.position
    return ⟨some range, []⟩
  | .pairs pairs => do
    let range ← valueRange src a.position
    let starts ← pairs.mapM fun pair => src.indexOf "ElementValuePair" pair.position
    return ⟨none, pairRanges range.2 (pairs.zip starts)⟩

/-- The node of an annotation whose texts are cut from these ranges. -/
def AnnotationRanges.node (src : TokenText) (name : String) (ranges : AnnotationRanges) :
    Except SpanFault AnnotationNode := do
  let value ← ranges.value.mapM fun range => src.cut range.1 range.2
  let pairs ← ranges.pairs.mapM fun pair => return (pair.1, ← src.cut pair.2.1 pair.2.2)
  return { name, value, pairs }

theorem pairTexts_eq (src : TokenText) (last : Int) (pairs : List (ElementPair × Int)) :
    pairTexts src last pairs =
      (pairRanges last pairs).mapM fun pair => return (pair.1, ← src.cut pair.2.1 pair.2.2) := by
  induction pairs with
  | nil => rfl
  | cons p rest ih =>
    unfold pairTexts pairRanges
    rw [List.mapM_cons, ih]
    cases rest <;> simp

/-- **The node of an annotation is cut from its ranges.** -/
theorem AnnotationUse.node_eq_ranges (src : TokenText) (use : AnnotationUse) :
    use.node src = use.ranges src >>= fun ranges => ranges.node src use.name := by
  obtain ⟨name, position, element⟩ := use
  unfold AnnotationUse.node AnnotationUse.ranges
  cases element with
  | absent => rfl
  | single value => simp [AnnotationRanges.node]
  | pairs pairs => simp [AnnotationRanges.node, pairTexts_eq]

/-! ### Extents -/

/-- The first and the last token of an extent. -/
def Extent.range (x : Extent) : Int × Int := (x.first, (x.stop : Int) - 1)

/-- The ranges that the values of an annotation were read from. -/
def Element.extents : Element → AnnotationRanges
  | .absent => ⟨none, []⟩
  | .single value => ⟨some value.range, []⟩
  | .pairs values => ⟨none, values.map fun pair => (pair.name, pair.value.range)⟩

/-- The tokens between the parentheses of an annotation that is given something. -/
def Element.given? : Element → Option Extent
  | .absent => none
  | .single value => some value
  | .pairs values => values.head?.bind fun first => values.getLast?.map fun last =>
    ⟨first.value.first - 2, last.value.stop⟩

/-- The ranges of named values, of which the last ends at `last`. -/
def ElementPair.upTo (last : Int) : List ElementPair → List (String × Int × Int)
  | [] => []
  | [pair] => [(pair.name, pair.value.first, last)]
  | pair :: next :: rest => (pair.name, pair.value.range) :: upTo last (next :: rest)

/-- The ranges that values were read from, but for the last of them, which ends at `last`. -/
def Element.upTo (last : Int) : Element → AnnotationRanges
  | .absent => ⟨none, []⟩
  | .single value => ⟨some (value.first, last), []⟩
  | .pairs values => ⟨none, ElementPair.upTo last values⟩

/-- As many parentheses are closed as are opened in what an annotation is given. -/
def Element.closes (tokens : Array Token) (element : Element) : Bool :=
  element.given?.all fun x => Level (.ofOpener "(") tokens x.first x.stop

end SourceDoc.Tree

namespace SourceDoc.Grammar

open SourceDoc.Tree SourceDoc.TokenText SourceDoc.Token

variable {tokens : Array Token} {i j : Nat} {pairs : List ElementPair} {element : Element}

/-- Where named values begin and end. -/
theorem PairsAt.bounds (h : PairsAt tokens i pairs j) :
    (∃ first, pairs.head? = some first ∧ first.value.first = i + 2) ∧
      ∃ last, pairs.getLast? = some last ∧ last.value.stop = j := by
  induction h with
  | @last i j pair h => exact ⟨⟨pair, rfl, by rw [h.value]⟩, pair, rfl, by rw [h.value]⟩
  | @more i j k pair pairs h hcomma hrest ih =>
    obtain ⟨-, last, hlast, hstop⟩ := ih
    refine ⟨⟨pair, rfl, by rw [h.value]⟩, last, ?_, hstop⟩
    rw [List.getLast?_cons, hlast]
    rfl

theorem ElementAt.given?_eq (h : ElementAt tokens i element j) : element.given? = some ⟨i, j⟩ := by
  cases h with
  | single => rfl
  | pairs h =>
    obtain ⟨⟨first, hfirst, hstart⟩, last, hlast, hstop⟩ := h.bounds
    simp [Element.given?, hfirst, hlast, hstart, hstop]

/-- Named values have the ranges that they were read from just if the last has the right end. -/
theorem PairsAt.upTo_eq_iff (h : PairsAt tokens i pairs j) (last : Int) :
    ElementPair.upTo last pairs = pairs.map (fun pair => (pair.name, pair.value.range)) ↔
      last = (j : Int) - 1 := by
  induction h with
  | last h => simp [ElementPair.upTo, Extent.range, h.value]
  | more h hcomma hrest ih =>
    obtain ⟨⟨next, hnext, -⟩, -⟩ := hrest.bounds
    obtain ⟨rest, rfl⟩ := List.head?_eq_some_iff.1 hnext
    simpa [ElementPair.upTo] using ih

theorem ElementAt.upTo_eq_iff (h : ElementAt tokens i element j) (last : Int) :
    element.upTo last = element.extents ↔ last = (j : Int) - 1 := by
  cases h with
  | single => simp [Element.upTo, Element.extents, Extent.range]
  | pairs h => simpa [Element.upTo, Element.extents] using h.upTo_eq_iff last

theorem PairAt.indexOf_eq {src : TokenText} (hspread : Spread src) {pair : ElementPair}
    (h : PairAt src.tokens i pair j) :
    src.indexOf "ElementValuePair" pair.position = .ok ((pair.value.first : Int) - 2) := by
  obtain ⟨t, ht, -, hposition⟩ := h.name
  have hstart : (pair.value.first : Int) - 2 = i := by
    rw [h.value]
    dsimp only
    omega
  rw [hposition, indexOf_position hspread ht, hstart]

/-- Named values are found by the places of their names. -/
theorem PairsAt.indexOf_eq {src : TokenText} (hspread : Spread src)
    (h : PairsAt src.tokens i pairs j) :
    pairs.mapM (fun pair => src.indexOf "ElementValuePair" pair.position) =
      .ok (pairs.map fun pair => (pair.value.first : Int) - 2) := by
  induction h with
  | last h =>
    rw [List.mapM_cons, h.indexOf_eq hspread]
    rfl
  | more h _ _ ih =>
    rw [List.mapM_cons, h.indexOf_eq hspread, ih]
    rfl

/-- **From the name of one value to that of the next there are its equals sign, its tokens and a comma.**
So only the end of the last value depends on where the parenthesis is closed. -/
theorem PairsAt.pairRanges_eq (h : PairsAt tokens i pairs j) (last : Int) :
    pairRanges last (pairs.zip (pairs.map fun pair => (pair.value.first : Int) - 2)) =
      ElementPair.upTo last pairs := by
  induction h with
  | last h => simp [pairRanges, ElementPair.upTo]
  | @more i j k pair pairs h _ hrest ih =>
    obtain ⟨⟨next, hnext, hstart⟩, -⟩ := hrest.bounds
    obtain ⟨rest, rfl⟩ := List.head?_eq_some_iff.1 hnext
    have hend : (next.value.first : Int) - 2 - 2 = (pair.value.stop : Int) - 1 := by
      rw [h.value]
      dsimp only
      omega
    rw [ElementPair.upTo, ← ih]
    simp [pairRanges, Extent.range, hend]

end SourceDoc.Grammar

namespace SourceDoc.Tree

open SourceDoc.TokenText SourceDoc.Grammar SourceDoc.Token

/-! ### Parentheses -/

variable {src : TokenText} {i j k : Nat}

/-- **The partner of a parenthesis is not found within what does not leave it**, and it is found behind
that just if the parentheses in it are closed. -/
theorem closing_of_rounds (hopen : Stands src.tokens k "(")
    (hrises : Rises (.ofOpener "(") src.tokens (k + 1) j) (hclose : Stands src.tokens j ")") :
    (∀ closer : Int, src.closing k = .ok closer → (j : Int) ≤ closer) ∧
      (src.closing k = .ok (j : Int) ↔ Level (.ofOpener "(") src.tokens (k + 1) j) := by
  obtain ⟨t, ht, hround⟩ := hopen
  obtain ⟨u, hu, hunround⟩ := hclose
  have hfirst : height (.ofOpener "(") src.tokens (k + 1) = height (.ofOpener "(") src.tokens k + 1 := by
    rw [height_succ ht, hround]
    rfl
  have hlast : height (.ofOpener "(") src.tokens (j + 1) = height (.ofOpener "(") src.tokens j - 1 := by
    rw [height_succ hu, hunround]
    rfl
  have hle := hrises.le
  have hsize := (Array.getElem?_eq_some_iff.1 hu).1
  -- All of what stands in between is higher than the parenthesis.
  have hhigher : ∀ n, k < n → n ≤ j →
      height (.ofOpener "(") src.tokens k < height (.ofOpener "(") src.tokens n := by
    intro n hlo hhi
    rcases Nat.eq_or_lt_of_le hhi with rfl | hlt
    · have := hrises.above
      omega
    · obtain ⟨v, -, hdemand⟩ := hrises.clear n hlo hlt
      dsimp only at hdemand
      omega
  obtain ⟨hbound, hiff⟩ := closing_of_higher ⟨t, ht, hround⟩ (by decide) (by omega) hsize hhigher
  refine ⟨hbound, hiff.trans ?_⟩
  unfold Level
  omega

/-- **All ranges of an annotation are right, but for the end of the last.** -/
theorem ranges_of_given (hspread : Spread src) {use : AnnotationUse}
    (hopens : use.Opens src.tokens k) (helement : ElementAt src.tokens (k + 1) use.element j) :
    use.ranges src = src.closing k >>= fun closer => .ok (use.element.upTo (closer - 1)) := by
  have hrange := valueRange_eq hspread hopens
  obtain ⟨name, position, element⟩ := use
  unfold AnnotationUse.ranges
  dsimp only at helement hrange ⊢
  rw [hrange]
  cases helement with
  | single => cases src.closing k <;> rfl
  | pairs hpairs =>
    simp only [hpairs.indexOf_eq hspread, Element.upTo, ← hpairs.pairRanges_eq]
    cases src.closing k <;> rfl

/-- The ranges of an annotation have the right starts and ends, but for an end of the last that may be
behind the right one, and it is right just if the parentheses in what the annotation is given are
closed. -/
structure AnnotationUse.Found (src : TokenText) (use : AnnotationUse) : Prop where
  reaches : ∀ ranges, use.ranges src = .ok ranges → ∃ last : Int, ranges = use.element.upTo last ∧
    ∀ x, use.element.given? = some x → (x.stop : Int) - 1 ≤ last
  eq_iff : use.ranges src = .ok use.element.extents ↔ use.element.closes src.tokens = true

theorem found_of_absent {use : AnnotationUse} (h : use.element = .absent) : use.Found src := by
  obtain ⟨name, position, element⟩ := use
  subst h
  exact ⟨fun ranges h => ⟨0, (Except.ok.inj h).symm, nofun⟩, iff_of_true rfl rfl⟩

theorem found_of_given (hspread : Spread src) {use : AnnotationUse} (hopens : use.Opens src.tokens k)
    (helement : ElementAt src.tokens (k + 1) use.element j)
    (hrises : Rises (.ofOpener "(") src.tokens (k + 1) j) (hclose : Stands src.tokens j ")") :
    use.Found src := by
  have hranges := ranges_of_given hspread hopens helement
  obtain ⟨hbound, hiff⟩ := closing_of_rounds hopens.opener hrises hclose
  constructor
  case reaches =>
    intro ranges h
    rw [hranges] at h
    obtain ⟨closer, hcloser, h⟩ := Except.bind_eq_ok h
    refine ⟨closer - 1, (Except.ok.inj h).symm, fun x hx => ?_⟩
    rw [helement.given?_eq] at hx
    obtain rfl := Option.some.inj hx
    have := hbound closer hcloser
    dsimp only
    omega
  case eq_iff =>
    rw [Element.closes, helement.given?_eq, Option.all_some, decide_eq_true_eq, ← hiff, hranges]
    constructor
    · intro h
      obtain ⟨closer, hcloser, h⟩ := Except.bind_eq_ok h
      have hlast := (helement.upTo_eq_iff _).1 (Except.ok.inj h)
      rw [hcloser, show closer = j by omega]
    · intro h
      rw [h]
      exact congrArg Except.ok ((helement.upTo_eq_iff _).2 rfl)

theorem found_of_useAt (hspread : Spread src) {use : AnnotationUse} (h : UseAt src.tokens i use j) :
    use.Found src := by
  cases h with
  | marker => exact found_of_absent rfl
  | empty => exact found_of_absent rfl
  | given ht hname hopen helement hclose hrises =>
    refine found_of_given hspread ⟨?_, ⟨_, _, ht, rfl, hname⟩, hopen⟩ helement hrises hclose
    rintro rfl
    cases helement

/-- The node of an annotation with ranges is built, unless the table of offsets is too short. -/
theorem gives_node_of_ranges (hspread : Spread src) (hplaced : Placed src) {use : AnnotationUse}
    (hat : UseAt src.tokens i use j) {ranges : AnnotationRanges} (h : use.ranges src = .ok ranges) :
    Except.Gives (fun _ => TooShort src) (fun _ => True) (use.node src) := by
  refine gives_annotationNode hplaced id hspread hat fun k t hopens _ hunclosed => ?_
  refine absurd hunclosed ?_
  unfold AnnotationUse.ranges at h
  split at h
  · rename_i habsent
    exact absurd habsent hopens.given
  · obtain ⟨range, hrange, -⟩ := Except.bind_eq_ok h
    exact hopens.not_unclosed hspread hrange
  · obtain ⟨range, hrange, -⟩ := Except.bind_eq_ok h
    exact hopens.not_unclosed hspread hrange

/-! ### Annotations of a source -/

/-- **The values of an annotation are cut from the tokens that they were read from, just if the
parentheses in what it is given are closed.**  This is so for every annotation of a declaration or of a
parameter in a parsed source, however deep its values are.  All ranges start where they should, and only
the last can end too late.  Where the parentheses are closed the node has the texts of what was read, and
it is built, unless the source ends inside an escape. -/
theorem annotationRanges_eq_extents_iff {code : WideString} {tree : CompilationUnit}
    (h : parseTree code = .ok (src, tree)) {d : Declaration} (hd : d ∈ Declaration.allOf tree.types)
    {use : AnnotationUse} (huse : use ∈ d.uses) :
    (∃ i j, UseAt src.tokens i use j) ∧
      use.node src = (use.ranges src >>= fun ranges => ranges.node src use.name) ∧
      (∀ ranges, use.ranges src = .ok ranges → ∃ last : Int, ranges = use.element.upTo last ∧
        ∀ x, use.element.given? = some x → (x.stop : Int) - 1 ≤ last) ∧
      (use.ranges src = .ok use.element.extents ↔ use.element.closes src.tokens = true) ∧
      (use.element.closes src.tokens = true →
        use.node src = use.element.extents.node src use.name ∧
        (¬ Escape.EndsInEscape code.toList → ∃ node, use.node src = .ok node)) := by
  obtain ⟨hspread, -⟩ := declarationAt_of_parseTree h
  obtain ⟨i, j, hat⟩ := (lies_of_parseTree h d hd).used use huse
  have hfound := found_of_useAt hspread hat
  have hnode := AnnotationUse.node_eq_ranges src use
  refine ⟨⟨i, j, hat⟩, hnode, hfound.reaches, hfound.eq_iff, fun hcloses => ?_⟩
  have hranges := hfound.eq_iff.2 hcloses
  constructor
  · rw [hnode, hranges]
    rfl
  · intro hends
    have hgives := gives_node_of_ranges hspread (placed_of_parseTree h) hat hranges
    cases hbuilt : use.node src with
    | ok node => exact ⟨node, rfl⟩
    | error fault => exact absurd (endsInEscape_of_tooShort h (hgives.fault hbuilt)) hends

/-- An annotation of the first declaration within the outermost type of a source that passes a test. -/
theorem exists_use_of_declaration? (code : WideString) (test : TokenText → AnnotationUse → Bool)
    (h : (declaration? code 1).any (fun found => found.2.uses.any (test found.1)) = true) :
    ∃ src tree d use, parseTree code = .ok (src, tree) ∧ d ∈ Declaration.allOf tree.types ∧
      use ∈ d.uses ∧ test src use = true := by
  obtain ⟨src, tree, d, hparse, hd, htest⟩ :=
    exists_of_declaration? code (fun src d => d.uses.any (test src)) h
  obtain ⟨use, huse, htest⟩ := List.any_eq_true.1 htest
  exact ⟨src, tree, d, use, hparse, hd, huse, htest⟩

/-- A value may hold braces, commas, equals signs, parentheses and annotations with values of their
own. -/
theorem annotationRanges_of_nested_values :
    ∃ src tree d use, parseTree
        "class T \x7b @p.A(k = \x7b@B(x = (1), y = f(2, 3)), 4\x7d, l = @C) int f; \x7d" =
          .ok (src, tree) ∧
      d ∈ Declaration.allOf tree.types ∧ use ∈ d.uses ∧ use.element.closes src.tokens = true ∧
      use.ranges src = .ok use.element.extents ∧
      use.node src = .ok ⟨"p.A", none,
        [("k", "\x7b@B(x = (1), y = f(2, 3)), 4\x7d"), ("l", "@C")]⟩ := by
  obtain ⟨src, tree, d, use, hparse, hd, huse, htest⟩ := exists_use_of_declaration?
    "class T \x7b @p.A(k = \x7b@B(x = (1), y = f(2, 3)), 4\x7d, l = @C) int f; \x7d"
    (fun src use => use.element.closes src.tokens && use.node src = .ok ⟨"p.A", none,
      [("k", "\x7b@B(x = (1), y = f(2, 3)), 4\x7d"), ("l", "@C")]⟩) (by decide +kernel)
  rw [Bool.and_eq_true, decide_eq_true_eq] at htest
  obtain ⟨-, -, -, hiff, -⟩ := annotationRanges_eq_extents_iff hparse hd huse
  exact ⟨src, tree, d, use, hparse, hd, huse, htest.1, hiff.2 htest.1, htest.2⟩

/-- The value of the annotation goes on up to the end of the parameters, because a parenthesis in it is
never closed: it was read in the body of a lambda, and when that fails, reading goes back no further than
to the cast. -/
theorem annotation_value_beyond_open_parenthesis :
    ∃ src tree d use, parseTree
        "class T \x7b void m(@V(() -> f(a[(int) x) int p) \x7b\x7d \x7d" = .ok (src, tree) ∧
      d ∈ Declaration.allOf tree.types ∧ use ∈ d.uses ∧ use.element = .single ⟨9, 20⟩ ∧
      use.ranges src = .ok ⟨some (9, 22), []⟩ ∧
      use.node src = .ok ⟨"V", some "() -> f(a[(int) x) int p", []⟩ := by
  obtain ⟨src, tree, d, use, hparse, hd, huse, htest⟩ := exists_use_of_declaration?
    "class T \x7b void m(@V(() -> f(a[(int) x) int p) \x7b\x7d \x7d"
    (fun src use => use.element = .single ⟨9, 20⟩ && use.ranges src = .ok ⟨some (9, 22), []⟩ &&
      use.node src = .ok ⟨"V", some "() -> f(a[(int) x) int p", []⟩) (by decide +kernel)
  simp only [Bool.and_eq_true, decide_eq_true_eq] at htest
  exact ⟨src, tree, d, use, hparse, hd, huse, htest.1.1, htest.1.2, htest.2⟩

end SourceDoc.Tree
