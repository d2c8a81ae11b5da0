import SourceDoc.Node.OfSource
import SourceDoc.Proofs.Grammar.UnitLayout
import SourceDoc.Proofs.Span.Ends

/-!
# The tokens that a declaration's text is cut from

The text of a declaration is cut from a range of tokens that is found anew, from the place of the
declaration (`Declaration.range`), and not taken from the tree.  The range always starts where the
declaration does, and never ends before it; it ends where the declaration does just if the brackets
that are counted on the way are closed there (`range_eq_extent_iff`).  The grammar accepts
declarations that leave brackets open, because a failed attempt may give back less than it has read.
-/

namespace SourceDoc.Tree

open SourceDoc.TokenText SourceDoc.Grammar SourceDoc.Token

/-! ### Ranges -/

/-- The name of the node of a declaration, as shown in messages. -/
def Body.label : Body → String
  | .type kind _ _ _ _ _ _ => nodeLabel kind
  | .field _ _ => "FieldDeclaration"
  | .method _ _ => "MethodDeclaration"
  | .constructor _ => "ConstructorDeclaration"

/-- The index of the last token of a declaration, found from the place of its anchor. -/
def Body.last (src : TokenText) (anchor : Int) : Body → Except SpanFault Int
  | .field _ _ => src.statementEnd anchor
  | _ => src.declarationEnd anchor

/-- The first and the last token of the text of a declaration. -/
def Declaration.range (src : TokenText) (d : Declaration) : Except SpanFault (Int × Int) := do
  let anchor ← src.indexOf d.body.label d.header.position
  let first ← src.declarationStart anchor (d.header.annotations.map (·.position))
  let last ← d.body.last src anchor
  return (first, last)

theorem Declaration.range_eq {src : TokenText} {d : Declaration} {anchor first last : Int}
    (hanchor : src.indexOf d.body.label d.header.position = .ok anchor)
    (hfirst : src.declarationStart anchor (d.header.annotations.map (·.position)) = .ok first)
    (hlast : d.body.last src anchor = .ok last) : d.range src = .ok (first, last) := by
  rw [Declaration.range, hanchor]
  show (src.declarationStart anchor _ >>= fun _ => _) = _
  rw [hfirst]
  show (d.body.last src anchor >>= fun _ => _) = _
  rw [hlast]
  rfl

/-- The text of a method or constructor. -/
theorem callableNode_text {src : TokenText} {kind : NodeKind} {label : String} {header : Header}
    {result : Option String} {callable : Callable} {node : SourceNode}
    (h : callableNode src kind label header result callable = .ok node) :
    ∃ anchor first last, src.indexOf label header.position = .ok anchor ∧
      src.declarationStart anchor (header.annotations.map (·.position)) = .ok first ∧
      src.declarationEnd anchor = .ok last ∧ src.cut first last = .ok node.text := by
  obtain ⟨anchor, hanchor, h⟩ := Except.bind_eq_ok h
  obtain ⟨first, hfirst, h⟩ := Except.bind_eq_ok h
  obtain ⟨last, hlast, h⟩ := Except.bind_eq_ok h
  obtain ⟨annotations, -, h⟩ := Except.bind_eq_ok h
  obtain ⟨children, -, h⟩ := Except.bind_eq_ok h
  obtain ⟨text, htext, h⟩ := Except.bind_eq_ok h
  rw [← Except.ok.inj h]
  exact ⟨anchor, first, last, hanchor, hfirst, hlast, htext⟩

/-- **The text of a declaration is cut from its range.** -/
theorem Declaration.text_of_node {src : TokenText} {d : Declaration} {node : SourceNode}
    (h : d.node src = .ok node) :
    ∃ first last, d.range src = .ok (first, last) ∧ src.cut first last = .ok node.text := by
  obtain ⟨header, body⟩ := d
  rw [Declaration.node] at h
  cases body with
  | field type ds =>
    rw [Body.node] at h
    obtain ⟨values, -, h⟩ := Except.bind_eq_ok h
    obtain ⟨anchor, hanchor, h⟩ := Except.bind_eq_ok h
    obtain ⟨first, hfirst, h⟩ := Except.bind_eq_ok h
    obtain ⟨annotations, -, h⟩ := Except.bind_eq_ok h
    obtain ⟨last, hlast, h⟩ := Except.bind_eq_ok h
    obtain ⟨text, htext, h⟩ := Except.bind_eq_ok h
    rw [← Except.ok.inj h]
    exact ⟨first, last, range_eq hanchor hfirst hlast, htext⟩
  | method result callable =>
    rw [Body.node] at h
    obtain ⟨anchor, first, last, hanchor, hfirst, hlast, htext⟩ := callableNode_text h
    exact ⟨first, last, range_eq hanchor hfirst hlast, htext⟩
  | constructor callable =>
    rw [Body.node] at h
    obtain ⟨anchor, first, last, hanchor, hfirst, hlast, htext⟩ := callableNode_text h
    exact ⟨first, last, range_eq hanchor hfirst hlast, htext⟩
  | type kind name typeParameters parents interfaces members extent =>
    rw [Body.node] at h
    obtain ⟨anchor, hanchor, h⟩ := Except.bind_eq_ok h
    obtain ⟨first, hfirst, h⟩ := Except.bind_eq_ok h
    obtain ⟨annotations, -, h⟩ := Except.bind_eq_ok h
    obtain ⟨children, -, h⟩ := Except.bind_eq_ok h
    obtain ⟨last, hlast, h⟩ := Except.bind_eq_ok h
    obtain ⟨text, htext, h⟩ := Except.bind_eq_ok h
    rw [← Except.ok.inj h]
    exact ⟨first, last, range_eq hanchor hfirst hlast, htext⟩

/-! ### Starts -/

/-- The least of some numbers. -/
theorem foldl_min_eq {m a : Int} {l : List Int} (ha : m ≤ a) (hall : ∀ x ∈ l, m ≤ x)
    (hmem : m = a ∨ m ∈ l) : l.foldl min a = m := by
  induction l generalizing a with
  | nil => exact (hmem.resolve_right List.not_mem_nil).symm
  | cons x l ih =>
    have hx := hall x List.mem_cons_self
    refine ih (by omega) (fun y hy => hall y (List.mem_cons_of_mem _ hy)) ?_
    rcases hmem with rfl | hmem
    · exact .inl (by omega)
    · rcases List.mem_cons.1 hmem with rfl | hmem
      · exact .inl (by omega)
      · exact .inr hmem

/-- The annotations of a declaration are found by their places; only modifiers stand before the
first of them. -/
theorem lead_of_marksAt {src : TokenText} (hspread : Spread src) {i anchor : Nat}
    {uses : List AnnotationUse} (h : MarksAt src.tokens i uses anchor) :
    ∃ (lead : Nat) (starts : List Int), i ≤ lead ∧ lead ≤ anchor ∧
      (∀ k, i ≤ k → k < lead → ∃ t, src.tokens[k]? = some t ∧ t.cls = .modifier) ∧
      (uses.map (·.position)).mapM (src.indexOf "Annotation") = .ok starts ∧
      starts.foldl min (anchor : Int) = lead ∧ ∀ s ∈ starts, (lead : Int) ≤ s := by
  induction h with
  | nil i => exact ⟨i, [], le_rfl, le_rfl, fun k _ _ => by omega, rfl, rfl, nofun⟩
  | @modifier i j t uses ht hcls _ ih =>
    obtain ⟨lead, starts, hlo, hhi, hmodifiers, hrest⟩ := ih
    refine ⟨lead, starts, by omega, hhi, fun k hk hklt => ?_, hrest⟩
    rcases Nat.eq_or_lt_of_le hk with rfl | hk
    · exact ⟨t, ht, hcls⟩
    · exact hmodifiers k hk hklt
  | @use i j k t use uses ht hcls hposition hle _ ih =>
    obtain ⟨lead, starts, hlo, hhi, -, hstarts, hmin, hall⟩ := ih
    have hall' : ∀ s ∈ (i : Int) :: starts, (i : Int) ≤ s := by
      intro s hs
      rcases List.mem_cons.1 hs with rfl | hs
      · exact Int.le_refl _
      · have := hall s hs
        omega
    refine ⟨i, i :: starts, le_rfl, by omega, fun k _ _ => by omega, ?_, ?_, hall'⟩
    · rw [List.map_cons, List.mapM_cons, hposition, indexOf_position hspread ht, hstarts]
      rfl
    · exact foldl_min_eq (by omega) hall' (.inr List.mem_cons_self)

/-- **A declaration is found to start where it does.** -/
theorem declarationStart_eq {src : TokenText} (hspread : Spread src) {header : Header}
    {anchor : Nat} (h : HeaderAt src.tokens header anchor) :
    src.declarationStart anchor (header.annotations.map (·.position)) =
      .ok (header.extent.first : Int) := by
  obtain ⟨t, ht, -⟩ := h.position
  have hsize := (Array.getElem?_eq_some_iff.1 ht).1
  obtain ⟨lead, starts, hlo, hhi, hmodifiers, hstarts, hmin, -⟩ := lead_of_marksAt hspread h.marks
  have hback := backOverModifiers_eq hlo (Nat.lt_of_le_of_lt hhi hsize) hmodifiers h.settled
  rw [declarationStart, hstarts]
  show (if 0 ≤ starts.foldl min (anchor : Int) then _ else _) = _
  rw [hmin, if_pos (Int.natCast_nonneg _), Int.toNat_natCast, hback]
  rfl

/-! ### Ends -/

/-- As many of the brackets that count are closed as are opened between two places. -/
def Level (m : Gauge) (tokens : Array Token) (i j : Nat) : Prop :=
  height m tokens j = height m tokens i

instance (m : Gauge) (tokens : Array Token) (i j : Nat) : Decidable (Level m tokens i j) :=
  inferInstanceAs (Decidable (_ = _))

/-- The brackets of a heading are closed before the body, and the braces of the body at its end;
without a body, the brackets of the heading are closed before the semicolon. -/
def headingCloses (tokens : Array Token) (anchor stop : Nat) : Option Extent → Bool
  | some extent => Level .heading tokens anchor extent.first &&
      Level .braces tokens extent.first extent.stop
  | none => Level .heading tokens anchor (stop - 1)

/-- The brackets that are counted on the way from the anchor of a declaration are closed at its end:
of a field all kinds of brackets, of the heading of a method or constructor parentheses and square
brackets, of a body the braces. -/
def Body.closes (tokens : Array Token) (anchor stop : Nat) : Body → Bool
  | .field _ _ => Level .brackets tokens anchor (stop - 1)
  | .method _ callable => headingCloses tokens anchor stop callable.body
  | .constructor callable => headingCloses tokens anchor stop callable.body
  | .type _ _ _ _ _ _ extent => Level .braces tokens extent.first extent.stop

/-- The end of a method or constructor. -/
theorem declarationEnd_spec {src : TokenText} {anchor stop : Nat} {found : Option Extent}
    (h : CallableAt src.tokens anchor stop found) (hmore : stop < src.size) :
    (∀ last : Int, src.declarationEnd anchor = .ok last → (stop : Int) - 1 ≤ last) ∧
      (src.declarationEnd anchor = .ok ((stop : Int) - 1) ↔
        headingCloses src.tokens anchor stop found = true) := by
  cases found with
  | some extent =>
    obtain ⟨hhead, hbraced, rfl⟩ := h
    rw [headingCloses, Bool.and_eq_true, decide_eq_true_eq, decide_eq_true_eq]
    exact declarationEnd_of_body hhead hbraced (.inr hmore)
  | none =>
    obtain ⟨last, hhead, hsemicolon, rfl⟩ := h
    rw [headingCloses, decide_eq_true_eq, show ((last + 1 : Nat) : Int) - 1 = last by omega]
    exact declarationEnd_of_semicolon hhead hsemicolon hmore

/-- **The end of a declaration is not found before it, and is found at it just if its brackets are
closed there.** -/
theorem Body.last_spec {src : TokenText} (hproper : ∀ t ∈ src.tokens, Proper t)
    {anchor stop : Nat} {body : Body} (h : BodyAt src.tokens anchor stop body)
    (hmore : body.isType = true ∨ stop < src.size) :
    (∀ last : Int, body.last src anchor = .ok last → (stop : Int) - 1 ≤ last) ∧
      (body.last src anchor = .ok ((stop : Int) - 1) ↔
        body.closes src.tokens anchor stop = true) := by
  cases body with
  | field type ds =>
    obtain ⟨last, hfield, rfl⟩ := h
    obtain ⟨found, hfound, hle, hlevel⟩ := statementEnd_spec (hfield.rises hproper)
      hfield.semicolon (hmore.resolve_left nofun)
    rw [Body.last, hfound, Body.closes, decide_eq_true_eq,
      show ((last + 1 : Nat) : Int) - 1 = last by omega]
    exact ⟨fun _ h => Except.ok.inj h ▸ hle, (Iff.intro Except.ok.inj (congrArg _)).trans hlevel⟩
  | method result callable => exact declarationEnd_spec h (hmore.resolve_left nofun)
  | constructor callable => exact declarationEnd_spec h (hmore.resolve_left nofun)
  | type kind name typeParameters parents interfaces members extent =>
    obtain ⟨hnested, hbraced, rfl⟩ := h
    have hlevel := hnested.level .heading
    -- The heading of a type is always closed, so only its body counts.
    have hspec := declarationEnd_of_body (hnested.rises _) hbraced (.inl hlevel)
    rw [and_iff_right hlevel] at hspec
    rw [Body.closes, decide_eq_true_eq]
    exact hspec

/-! ### Declarations of a source -/

theorem exists_of_parseTree {code : WideString} {src : TokenText} {tree : CompilationUnit}
    (h : parseTree code = .ok (src, tree)) :
    ∃ data tokens, ofSource code.toList = .ok (data, tokens) ∧
      src = ofTokens data tokens (some code.toList) ∧ parseUnit src.tokens = .ok tree := by
  rw [parseTree] at h
  split at h
  · cases h
  rename_i data tokens hsource
  split at h
  · cases h
  rename_i unit hunit
  obtain ⟨rfl, rfl⟩ := Prod.mk.inj (Except.ok.inj h)
  exact ⟨data, tokens, hsource, rfl, hunit⟩

theorem proper_of_parseTree {code : WideString} {src : TokenText} {tree : CompilationUnit}
    (h : parseTree code = .ok (src, tree)) : ∀ t ∈ src.tokens, Proper t := by
  obtain ⟨data, tokens, hsource, rfl, -⟩ := exists_of_parseTree h
  obtain ⟨items, hreading, rfl⟩ := exists_reading_of_ofSource hsource
  exact fun t ht => hreading.proper t (List.mem_toArray.1 ht)

/-- The tokens of a source that was parsed have different places and fit their classes, and its
declarations stand where their extents say. -/
theorem declarationAt_of_parseTree {code : WideString} {src : TokenText} {tree : CompilationUnit}
    (h : parseTree code = .ok (src, tree)) :
    Spread src ∧ (∀ t ∈ src.tokens, Proper t) ∧ ∀ d ∈ Declaration.allOf tree.types,
      DeclarationAt src.tokens d ∧ (d.body.isType = true ∨ d.header.extent.stop < src.size) := by
  have hproper := proper_of_parseTree h
  obtain ⟨data, tokens, hsource, rfl, hunit⟩ := exists_of_parseTree h
  exact ⟨spread_of_ofSource hsource _, hproper, fun d hd =>
    declarationAt_of_parseUnit hproper hunit hd⟩

/-- **The text of a declaration is cut from the tokens that it was read from, just if its brackets are
closed.**  It always begins with the first modifier or annotation of the declaration, and it never
ends before the brace or semicolon that ends the declaration. -/
theorem range_eq_extent_iff {code : WideString} {src : TokenText} {tree : CompilationUnit}
    (h : parseTree code = .ok (src, tree)) {d : Declaration}
    (hd : d ∈ Declaration.allOf tree.types) :
    ∃ anchor : Nat,
      (∃ t, src.tokens[anchor]? = some t ∧ d.header.position = some t.position) ∧
      MarksAt src.tokens d.header.extent.first d.header.annotations anchor ∧
      (∃ last value, d.header.extent.stop = last + 1 ∧ anchor ≤ last ∧
        Stands src.tokens last value ∧ value ∈ [Parser.closeBrace, ";"]) ∧
      (∀ node, d.node src = .ok node →
        ∃ first last, d.range src = .ok (first, last) ∧ src.cut first last = .ok node.text) ∧
      (∀ first last, d.range src = .ok (first, last) →
        first = d.header.extent.first ∧ (d.header.extent.stop : Int) - 1 ≤ last) ∧
      (d.range src = .ok ((d.header.extent.first : Int), (d.header.extent.stop : Int) - 1) ↔
        d.body.closes src.tokens anchor d.header.extent.stop = true) := by
  obtain ⟨hspread, hproper, hall⟩ := declarationAt_of_parseTree h
  obtain ⟨⟨anchor, hheader, hbody⟩, hmore⟩ := hall d hd
  obtain ⟨t, ht, hposition⟩ := hheader.position
  have hanchor : src.indexOf d.body.label d.header.position = .ok (anchor : Int) := by
    rw [hposition]
    exact indexOf_position hspread ht _
  have hfirst := declarationStart_eq hspread hheader
  obtain ⟨hle, hiff⟩ := Body.last_spec hproper hbody hmore
  have hrange : ∀ first last, d.range src = .ok (first, last) ↔
      first = d.header.extent.first ∧ d.body.last src anchor = .ok last := by
    intro first last
    constructor
    · intro h
      obtain ⟨a, ha, h⟩ := Except.bind_eq_ok h
      obtain rfl := Except.ok.inj (hanchor.symm.trans ha)
      obtain ⟨b, hb, h⟩ := Except.bind_eq_ok h
      obtain rfl := Except.ok.inj (hfirst.symm.trans hb)
      obtain ⟨c, hc, h⟩ := Except.bind_eq_ok h
      obtain ⟨rfl, rfl⟩ := Prod.mk.inj (Except.ok.inj h)
      exact ⟨rfl, hc⟩
    · rintro ⟨rfl, hlast⟩
      exact Declaration.range_eq hanchor hfirst hlast
  refine ⟨anchor, ⟨t, ht, hposition⟩, hheader.marks, hbody.closer hproper,
    fun node hnode => Declaration.text_of_node hnode, fun first last h => ?_, ?_⟩
  · obtain ⟨rfl, hlast⟩ := (hrange first last).1 h
    exact ⟨rfl, hle last hlast⟩
  · rw [hrange, ← hiff]
    exact and_iff_right rfl

/-! ### Two sources -/

/-- The declaration with a number among all declarations of a source, with the tokens. -/
def declaration? (code : WideString) (n : Nat) : Option (TokenText × Declaration) :=
  match parseTree code with
  | .ok (src, tree) => (Declaration.allOf tree.types)[n]?.map (src, ·)
  | .error _ => none

/-- A declaration of a source that passes a test. -/
theorem exists_of_declaration? {n : Nat} (code : WideString) (test : TokenText → Declaration → Bool)
    (h : (declaration? code n).any (fun found => test found.1 found.2) = true) :
    ∃ src tree d, parseTree code = .ok (src, tree) ∧ d ∈ Declaration.allOf tree.types ∧
      test src d = true := by
  rw [declaration?] at h
  split at h
  · rename_i src tree hparse
    obtain ⟨⟨_, d⟩, hfound, htest⟩ := (Option.any_eq_true _ _).1 h
    obtain ⟨d', hd, hpair⟩ := Option.map_eq_some_iff.1 hfound
    obtain ⟨rfl, rfl⟩ := Prod.mk.inj hpair
    exact ⟨src, tree, d', hparse, List.mem_of_getElem? hd, htest⟩
  · cases h

/-- Braces and semicolons in the annotation of a parameter, and blocks in the body, do not end a
method. -/
theorem range_of_annotated_method :
    ∃ src tree d anchor, parseTree
        "class T \x7b static int[] m(@A(\x7b\";\"\x7d) int a) \x7b \x7b \x7d \x7d \x7d" =
          .ok (src, tree) ∧
      d ∈ Declaration.allOf tree.types ∧ d.header.extent = ⟨3, 23⟩ ∧
      d.range src = .ok (3, 22) ∧ d.body.closes src.tokens anchor 23 = true := by
  obtain ⟨src, tree, d, hparse, hd, htest⟩ := exists_of_declaration? (n := 1)
    "class T \x7b static int[] m(@A(\x7b\";\"\x7d) int a) \x7b \x7b \x7d \x7d \x7d"
    (fun src d => d.header.extent = ⟨3, 23⟩ && d.range src = .ok (3, 22)) (by decide +kernel)
  rw [Bool.and_eq_true, decide_eq_true_eq, decide_eq_true_eq] at htest
  obtain ⟨hextent, hrange⟩ := htest
  obtain ⟨anchor, -, -, -, -, -, hiff⟩ := range_eq_extent_iff hparse hd
  rw [hextent] at hiff
  exact ⟨src, tree, d, anchor, hparse, hd, hextent, hrange, hiff.1 hrange⟩

/-- The text of the field `f` goes on up to the last brace, because two parentheses before the cast
are never closed: they were read as the parameters of a lambda, and when that fails, reading goes
back no further than to the cast. -/
theorem range_beyond_open_bracket :
    ∃ src tree d node, parseTree "class T \x7b int f = (@A((int) x; int g; \x7d" = .ok (src, tree) ∧
      d ∈ Declaration.allOf tree.types ∧ d.header.extent = ⟨3, 15⟩ ∧ d.range src = .ok (3, 18) ∧
      d.node src = .ok node ∧ node.text = "int f = (@A((int) x; int g; \x7d" := by
  obtain ⟨src, tree, d, hparse, hd, htest⟩ := exists_of_declaration? (n := 1)
    "class T \x7b int f = (@A((int) x; int g; \x7d"
    (fun src d => d.header.extent = ⟨3, 15⟩ && d.range src = .ok (3, 18) &&
      (d.node src).toOption.any (·.text = .ofString "int f = (@A((int) x; int g; \x7d"))
    (by decide +kernel)
  rw [Bool.and_eq_true, Bool.and_eq_true, decide_eq_true_eq, decide_eq_true_eq] at htest
  obtain ⟨⟨hextent, hrange⟩, htext⟩ := htest
  obtain ⟨node, hnode, htext⟩ := (Option.any_eq_true _ _).1 htext
  refine ⟨src, tree, d, node, hparse, hd, hextent, hrange, ?_, of_decide_eq_true htext⟩
  cases hresult : d.node src with
  | error fault => rw [hresult] at hnode; cases hnode
  | ok found => rw [hresult] at hnode; exact congrArg _ (Option.some.inj hnode)

end SourceDoc.Tree
