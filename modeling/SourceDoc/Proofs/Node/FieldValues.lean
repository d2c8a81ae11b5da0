import SourceDoc.Proofs.Node.AnnotationValues
import SourceDoc.Proofs.Span.Stacks

/-!
# Where the initial values of a field lie

The initial values of a field are found by a walk that alternates between passing dimensions and looking
for the comma before the next variable.  What it does to one variable is said once (`exists_part`): the
value, if there is one, begins behind an equals sign and ends before a comma or the end of the
declaration, and the walk goes on behind the comma.  So whatever the names are, the values lie one behind
the other within the declaration (`exists_initializerRangesFrom`), and they are all read, unless the
source ends inside an escape (`initializers_within_declaration`).
-/

namespace SourceDoc.TokenText

open SourceDoc.Grammar SourceDoc.Grammar.Parser SourceDoc.Token SourceDoc.Tree

variable {src : TokenText} {tokens : Array Token} {anchor stop i j : Nat}

/-! ### Values of a declaration -/

/-- Some tokens lie in a declaration as an initial value does. -/
structure ValueAt (tokens : Array Token) (anchor stop : Nat) (x : Extent) : Prop where
  /-- The equals sign stands behind the first token of the declaration. -/
  anchor_lt : anchor + 1 < x.first
  /-- There may be no token. -/
  le : x.first ≤ x.stop
  /-- The declaration does not end before. -/
  stop_le : x.stop ≤ stop
  /-- An equals sign stands just before. -/
  equals : Stands tokens (x.first - 1) "="
  /-- A comma stands just behind, or the declaration ends there. -/
  ends : Stands tokens x.stop "," ∨ x.stop = stop

/-- The values of the variables of a declaration lie one behind the other. -/
structure ValuesWithin (tokens : Array Token) (anchor stop : Nat) (values : List (Option Extent)) :
    Prop where
  /-- Each of them lies in the declaration. -/
  valueAt : ∀ x, some x ∈ values → ValueAt tokens anchor stop x
  /-- Each of them ends before the next one begins. -/
  ascend : values.Pairwise fun value next => ∀ x ∈ value, ∀ y ∈ next, x.stop < y.first

theorem ValueAt.mono {x : Extent} (h : ValueAt tokens i stop x) (hle : anchor ≤ i) :
    ValueAt tokens anchor stop x :=
  ⟨by have := h.anchor_lt; omega, h.le, h.stop_le, h.equals, h.ends⟩

theorem ValuesWithin.mono {values : List (Option Extent)} (h : ValuesWithin tokens i stop values)
    (hle : anchor ≤ i) : ValuesWithin tokens anchor stop values :=
  ⟨fun x hx => (h.valueAt x hx).mono hle, h.ascend⟩

/-- Variables without values have none that could lie anywhere. -/
theorem valuesWithin_none {α : Type} (l : List α) :
    ValuesWithin tokens anchor stop (l.map fun _ => none) := by
  constructor
  · intro x hx
    simp at hx
  · rw [List.pairwise_map]
    exact List.pairwise_of_forall fun _ _ x hx => by cases hx

/-- **A value in front of others**, which come behind the place where it ends. -/
theorem ValuesWithin.cons {value : Option Extent} {values : List (Option Extent)}
    (h : ValuesWithin tokens i stop values) (hle : anchor ≤ i)
    (hvalue : ∀ x ∈ value, ValueAt tokens anchor stop x ∧ x.stop ≤ i) :
    ValuesWithin tokens anchor stop (value :: values) := by
  constructor
  · intro x hx
    rcases List.mem_cons.1 hx with hx | hx
    · exact (hvalue x hx.symm).1
    · exact (h.valueAt x hx).mono hle
  · refine List.pairwise_cons.2 ⟨?_, h.ascend⟩
    rintro next hnext x hx y rfl
    have hend := (hvalue x hx).2
    have hbehind := (h.valueAt y hnext).anchor_lt
    omega

/-! ### One variable -/

/-- **Dimensions are passed within properly nested tokens.**  As many rounds as there are tokens are
enough, and more do not change the place. -/
theorem exists_behindBrackets (hbalanced : Balanced src.tokens anchor stop)
    (hstop : ¬ Stands src.tokens stop "[") (hlo : anchor ≤ j) (hhi : j ≤ stop) :
    ∃ k : Nat, j ≤ k ∧ k ≤ stop ∧ ∀ rounds, stop - j ≤ rounds →
      src.behindBrackets rounds j = .ok (k : Int) := by
  -- Each round passes a bracket and its partner, so that fewer tokens are left.
  induction hleft : stop - j using Nat.strongRecOn generalizing j with
  | ind left ih =>
  by_cases hopen : Stands src.tokens j "["
  · have hlt : j < stop := Nat.lt_of_le_of_ne hhi fun h => hstop (h ▸ hopen)
    obtain ⟨p, hjp, hp, hpartners⟩ := exists_partners hbalanced hlo hlt hopen (by decide)
    obtain ⟨k, hk, hkstop, hrounds⟩ := ih (stop - (p + 1)) (by omega) (by omega) (by omega) rfl
    refine ⟨k, by omega, hkstop, fun rounds hmany => ?_⟩
    obtain ⟨rounds, rfl⟩ : ∃ n, rounds = n + 1 := ⟨rounds - 1, by omega⟩
    rw [behindBrackets, if_pos ((hasValue_iff (by decide)).2 hopen), closing_of_partners hpartners]
    show src.behindBrackets rounds ((p : Int) + 1) = _
    rw [← Int.natCast_succ]
    exact hrounds rounds (by omega)
  · refine ⟨j, le_rfl, hhi, fun rounds _ => ?_⟩
    cases rounds with
    | zero => rfl
    | succ rounds =>
      rw [behindBrackets, if_neg]
      rwa [hasValue_iff (by decide)]

/-- **The end of a variable** is that of the declaration, or a comma before it, behind which the next
variable is declared. -/
theorem exists_declaratorBoundary (next : Option String) (hle : i ≤ stop) (hsize : stop ≤ src.size) :
    ∃ b : Nat, src.declaratorBoundary i stop next = b ∧ i ≤ b ∧ b ≤ stop ∧
      (b < stop → Stands src.tokens b "," ∧ ∃ name, src.declaratorAt (b + 1 : Nat) name = true) := by
  unfold declaratorBoundary
  split
  · exact ⟨stop, rfl, hle, le_rfl, fun h => by omega⟩
  · exact ⟨stop, rfl, hle, le_rfl, fun h => by omega⟩
  · rename_i name _
    have htokens : ∀ k, i ≤ k → k < stop → ∃ t, src.tokens[k]? = some t := fun k _ hk =>
      ⟨_, Array.getElem?_eq_getElem (show k < src.tokens.size from Nat.lt_of_lt_of_le hk hsize)⟩
    rw [show ((stop : Int) - i).toNat = stop - i + 0 by omega,
      ← Int.sub_self (height .brackets src.tokens i)]
    rcases boundaryFrom_spec (height .brackets src.tokens i) hle htokens 0 with
      ⟨b, hlo, hhi, hboundary, hfound⟩ | ⟨-, hnone⟩
    · rw [hfound]
      exact ⟨b, rfl, hlo, hhi.le, fun _ => ⟨hboundary.1, name, hboundary.2.2⟩⟩
    · rw [hnone]
      exact ⟨stop, rfl, hle, le_rfl, fun h => by omega⟩

/-- **What the walk does to one variable.** -/
theorem exists_part (next : Option String) (hsemicolon : Stands src.tokens stop ";") (hle : j ≤ stop) :
    ∃ (value : Option Extent) (b : Nat), src.part stop j next = (value.map Extent.range, (b : Int)) ∧
      j ≤ b ∧ b ≤ stop ∧
      (b < stop → Stands src.tokens b "," ∧ ∃ name, src.declaratorAt (b + 1 : Nat) name = true) ∧
      ∀ x ∈ value, x.first = j + 1 ∧ x.first ≤ x.stop ∧ x.stop = b ∧ Stands src.tokens j "=" := by
  have hsize : stop ≤ src.size := hsemicolon.lt_size.le
  unfold part
  split
  · rename_i hvalue
    have hequals : Stands src.tokens j "=" := (hasValue_iff (by decide)).1 hvalue
    have hlt : j < stop := by
      refine Nat.lt_of_le_of_ne hle ?_
      rintro rfl
      exact absurd (hequals.unique hsemicolon) (by decide)
    obtain ⟨b, hb, hlo, hhi, hcomma⟩ := exists_declaratorBoundary next (Nat.succ_le_of_lt hlt) hsize
    rw [← Int.natCast_succ, hb]
    refine ⟨some ⟨j + 1, b⟩, b, rfl, by omega, hhi, hcomma, ?_⟩
    rintro _ ⟨⟩
    exact ⟨rfl, hlo, rfl, hequals⟩
  · obtain ⟨b, hb, hlo, hhi, hcomma⟩ := exists_declaratorBoundary next hle hsize
    rw [hb]
    exact ⟨none, b, rfl, hlo, hhi, hcomma, fun x hx => by cases hx⟩

/-! ### All variables -/

/-- Nothing is declared at the end of a declaration. -/
theorem lt_stop_of_declaratorAt (hproper : ∀ t ∈ src.tokens, Proper t) {name : String}
    (hsemicolon : Stands src.tokens stop ";") (hle : i ≤ stop)
    (hat : src.declaratorAt i name = true) : i < stop := by
  refine Nat.lt_of_le_of_ne hle ?_
  rintro rfl
  rw [declaratorAt_of_stands hproper hsemicolon (by decide)] at hat
  cases hat

/-- **The values of the variables from a place on lie within the declaration, one behind the other.**  The
induction is on the names; the place of the next variable is behind the comma that ends this one, so that
what the walk finds there cannot reach back. -/
theorem exists_initializerRangesFrom (hproper : ∀ t ∈ src.tokens, Proper t)
    (hsemicolon : Stands src.tokens stop ";") (hbalanced : Balanced src.tokens anchor stop)
    (names : List String) (hlo : anchor ≤ i) (hhi : i < stop) :
    ∃ values : List (Option Extent), values.length = names.length ∧
      src.initializerRangesFrom stop i names = .ok (values.map (·.map Extent.range)) ∧
      ValuesWithin src.tokens i stop values := by
  induction names generalizing i with
  | nil => exact ⟨[], rfl, rfl, valuesWithin_none ([] : List String)⟩
  | cons name others ih =>
    have hbracket : ¬ Stands src.tokens stop "[" := fun h =>
      absurd (h.unique hsemicolon) (by decide)
    have hsize : stop ≤ src.size := hsemicolon.lt_size.le
    obtain ⟨j, hij, hj, hrounds⟩ :=
      exists_behindBrackets hbalanced hbracket (Nat.le_succ_of_le hlo) (Nat.succ_le_of_lt hhi)
    have hbehind : src.behindBrackets src.size ((i : Int) + 1) = .ok (j : Int) :=
      hrounds src.size (by omega)
    obtain ⟨value, b, hpart, hjb, hb, hcomma, hvalue⟩ := exists_part others.head? hsemicolon hj
    have hvalueAt : ∀ x ∈ value, ValueAt src.tokens i stop x ∧ x.stop ≤ b := by
      intro x hx
      obtain ⟨hfirst, hle, hend, hequals⟩ := hvalue x hx
      refine ⟨⟨by omega, hle, by omega, ?_, ?_⟩, hend.le⟩
      · rwa [hfirst]
      · rw [hend]
        exact (Nat.lt_or_eq_of_le hb).imp_left fun h => (hcomma h).1
    rw [initializerRangesFrom_cons hbehind, hpart]
    dsimp only
    by_cases hlast : b < stop
    · -- The next variable is declared behind the comma.
      obtain ⟨-, next, hat⟩ := hcomma hlast
      have hnext := lt_stop_of_declaratorAt hproper hsemicolon (Nat.succ_le_of_lt hlast) hat
      obtain ⟨values, hlength, hranges, hwithin⟩ := ih (i := b + 1) (by omega) hnext
      refine ⟨value :: values, congrArg (· + 1) hlength, ?_, hwithin.cons (by omega) ?_⟩
      · rw [if_neg (by omega), ← Int.natCast_succ, hranges]
        rfl
      · exact fun x hx => ⟨(hvalueAt x hx).1, Nat.le_succ_of_le (hvalueAt x hx).2⟩
    · -- The declaration ends, and with it the walk.
      refine ⟨value :: others.map fun _ => none, by simp, ?_,
        (valuesWithin_none others).cons (by omega) hvalueAt⟩
      rw [if_pos (by omega)]
      simp

theorem firstDeclaratorFrom_bounds {name : String} {angle m r : Int} {n : Nat}
    (h : src.firstDeclaratorFrom name angle m n = some r) : m ≤ r ∧ r < m + n := by
  refine ⟨le_of_firstDeclaratorFrom h, ?_⟩
  induction n generalizing angle m with
  | zero => cases h
  | succ n ih =>
    rw [firstDeclaratorFrom] at h
    split at h
    · have := ih h
      omega
    · split at h
      · have := ih h
        omega
      · split at h
        · have := Option.some.inj h
          omega
        · have := ih h
          omega

/-- The values of a declaration that ends with a semicolon and is properly nested. -/
theorem exists_initializerRanges (hspread : Spread src) (hproper : ∀ t ∈ src.tokens, Proper t)
    {t : Token} (ht : src.tokens[anchor]? = some t) (hend : src.statementEnd anchor = .ok (stop : Int))
    (hsemicolon : Stands src.tokens stop ";") (hbalanced : Balanced src.tokens anchor stop)
    (declared : List (String × Bool)) :
    ∃ values : List (Option Extent), values.length = declared.length ∧
      src.initializerRanges (some t.position) declared = .ok (values.map (·.map Extent.range)) ∧
      ValuesWithin src.tokens anchor stop values := by
  have hmissing : Except.ok (declared.map fun _ => none) =
      (.ok ((declared.map fun _ => none).map (·.map Extent.range)) :
        Except SpanFault (List (Option (Int × Int)))) := by
    rw [List.map_map]
    rfl
  unfold initializerRanges readInitializers
  split
  · exact ⟨_, List.length_map _, hmissing, valuesWithin_none declared⟩
  · simp only [indexOf_position hspread ht, hend, bind, Except.bind]
    split
    · exact ⟨_, List.length_map _, hmissing, valuesWithin_none declared⟩
    · rename_i first hfirst
      obtain ⟨hlo, hhi⟩ := firstDeclaratorFrom_bounds hfirst
      obtain ⟨i, rfl⟩ := Int.eq_ofNat_of_zero_le (show 0 ≤ first by omega)
      obtain ⟨values, hlength, hranges, hwithin⟩ :=
        exists_initializerRangesFrom hproper hsemicolon hbalanced (declared.map (·.1))
          (i := i) (by omega) (by omega)
      exact ⟨values, hlength.trans (List.length_map _), hranges, hwithin.mono (by omega)⟩

/-! ### Texts -/

/-- Each text is that of the tokens of a value. -/
def TextsOf (src : TokenText) : List (Option Extent) → List (Option WideString) → Prop :=
  List.Forall₂ (Option.Rel fun x text => src.cut x.range.1 x.range.2 = .ok text)

theorem textsOf_of_readRanges {values : List (Option Extent)} {texts : List (Option WideString)}
    (h : readRanges src.cut (values.map (·.map Extent.range)) = .ok texts) : TextsOf src values texts := by
  have hread := List.forall₂_map_left_iff.1 (Except.forall₂_of_mapM h)
  refine hread.imp fun value text htext => ?_
  cases value with
  | none =>
    obtain rfl : none = text := Except.ok.inj htext
    exact .none
  | some x =>
    obtain ⟨text, hcut, rfl⟩ := Except.map_eq_ok htext
    exact .some hcut

/-- **Values that lie in the tokens are read, unless the table of offsets is too short.** -/
theorem gives_texts (hplaced : Placed src) {values : List (Option Extent)} (hstop : stop ≤ src.size)
    (h : ValuesWithin src.tokens anchor stop values) :
    Except.Gives (fun fault => fault = .outOfRange ∧ TooShort src) (TextsOf src values)
      (readRanges src.cut (values.map (·.map Extent.range))) := by
  have hgives : Except.Gives (fun fault => fault = .outOfRange ∧ TooShort src) (fun _ => True)
      (readRanges src.cut (values.map (·.map Extent.range))) := by
    refine (Except.Gives.mapM (Q := fun _ => True) fun range hrange => ?_).mono (fun _ h => h)
      fun _ _ => trivial
    obtain ⟨value, hvalue, rfl⟩ := List.mem_map.1 hrange
    cases value with
    | none => exact .ok trivial
    | some x =>
      have hend := (h.valueAt x hvalue).stop_le
      have hlast : x.range.2 < src.size := by
        unfold Extent.range
        omega
      have hcut : Except.Gives (fun fault => fault = .outOfRange ∧ TooShort src) (fun _ => True)
          (src.cut x.range.1 x.range.2) :=
        gives_cut hplaced (fun hshort => ⟨rfl, hshort⟩) (Int.natCast_nonneg _) hlast
      exact hcut.bind fun _ _ => .ok trivial
  cases hread : readRanges src.cut (values.map (·.map Extent.range)) with
  | ok texts => exact .ok (textsOf_of_readRanges hread)
  | error fault => exact .error (hgives.fault hread)

/-- **The initial values of a field lie within its declaration, one behind the other, and are read, unless
the source ends inside an escape.**  The declaration ends with a semicolon, and its brackets are properly
nested.  The names of the variables may be any.  There is one entry for each variable.  The tokens of a
value have an equals sign just before them and a comma, or the end of the declaration, just behind.
Reading fails in one way only: the source was given, it ends inside an escape, and a place is not found. -/
theorem initializers_within_declaration {source : List WideChar} {data : List WideChar}
    {tokens : List Token} (hsource : ofSource source = .ok (data, tokens))
    {written : Option (List WideChar)} (hwritten : written = none ∨ written = some source)
    {anchor stop : Nat} {t : Token} (ht : (ofTokens data tokens written).tokens[anchor]? = some t)
    (hend : (ofTokens data tokens written).statementEnd anchor = .ok (stop : Int))
    (hsemicolon : Stands (ofTokens data tokens written).tokens stop ";")
    (hbalanced : Balanced (ofTokens data tokens written).tokens anchor stop)
    (declared : List (String × Bool)) :
    ∃ values : List (Option Extent), values.length = declared.length ∧
      ValuesWithin (ofTokens data tokens written).tokens anchor stop values ∧
      ((∃ texts, (ofTokens data tokens written).initializers (some t.position) declared = .ok texts ∧
          TextsOf (ofTokens data tokens written) values texts) ∨
        (written = some source ∧ Escape.EndsInEscape source ∧
          (ofTokens data tokens written).initializers (some t.position) declared =
            .error .outOfRange)) := by
  have hproper : ∀ t ∈ (ofTokens data tokens written).tokens, Proper t := by
    obtain ⟨items, hreading, rfl⟩ := exists_reading_of_ofSource hsource
    exact fun t ht => hreading.proper t (List.mem_toArray.1 ht)
  have hstop : stop ≤ (ofTokens data tokens written).size := hsemicolon.lt_size.le
  obtain ⟨values, hlength, hranges, hwithin⟩ := exists_initializerRanges
    (spread_of_ofSource hsource written) hproper ht hend hsemicolon hbalanced declared
  refine ⟨values, hlength, hwithin, ?_⟩
  have hread := readAt_initializerRanges (ofTokens data tokens written)
    (ofTokens data tokens written).cut (some t.position) declared
  rw [hranges] at hread
  have hgives := gives_texts (placed_of_ofSource hsource written) hstop hwithin
  rw [← hread.eq_readRanges] at hgives
  show (∃ texts, (ofTokens data tokens written).readInitializers _ _ _ = _ ∧ _) ∨ _ ∧ _ ∧
    (ofTokens data tokens written).readInitializers _ _ _ = _
  revert hgives
  generalize (ofTokens data tokens written).readInitializers _ (some t.position) declared = found
  intro hgives
  cases hgives with
  | ok htexts => exact .inl ⟨_, rfl, htexts⟩
  | error hfault =>
    obtain ⟨rfl, hshort⟩ := hfault
    rcases hwritten with rfl | rfl
    · -- Without the source there is no table.
      obtain ⟨table, htable, -⟩ := hshort
      cases htable
    · exact .inr ⟨rfl, endsInEscape_of_ofSource hsource hshort, rfl⟩

/-- Whether a declaration of a source ends with a semicolon and is properly nested, and its initial values
are read as told. -/
def readsField (source : List WideChar) (anchor stop : Nat) (declared : List (String × Bool))
    (found : Except SpanFault (List (Option WideString))) : Bool :=
  match ofSource source with
  | .error _ => false
  | .ok (data, tokens) =>
    let src := ofTokens data tokens (some source)
    src.tokens[anchor]?.any fun t =>
      src.statementEnd anchor = .ok (stop : Int) && src.tokens[stop]?.any (·.value = ";") &&
        (anchor ≤ stop && openedAt src.tokens anchor stop = some []) &&
        src.initializers (some t.position) declared = found

theorem exists_of_readsField {source : List WideChar} {anchor stop : Nat} {declared : List (String × Bool)}
    {found : Except SpanFault (List (Option WideString))}
    (h : readsField source anchor stop declared found = true) :
    ∃ data tokens t, ofSource source = .ok (data, tokens) ∧
      (ofTokens data tokens (some source)).tokens[anchor]? = some t ∧
      (ofTokens data tokens (some source)).statementEnd anchor = .ok (stop : Int) ∧
      Stands (ofTokens data tokens (some source)).tokens stop ";" ∧
      Balanced (ofTokens data tokens (some source)).tokens anchor stop ∧
      (ofTokens data tokens (some source)).initializers (some t.position) declared = found := by
  unfold readsField at h
  split at h
  · cases h
  · rename_i data tokens hsource
    obtain ⟨t, ht, htest⟩ := (Option.any_eq_true _ _).1 h
    simp only [Bool.and_eq_true, decide_eq_true_eq, Option.any_eq_true] at htest
    obtain ⟨⟨⟨hend, hsemicolon⟩, hbalanced⟩, hfound⟩ := htest
    exact ⟨data, tokens, t, hsource, ht, hend, hsemicolon, hbalanced, hfound⟩

/-- An array and two variables of the same name, of which only the first has a value. -/
def repeatedName : List WideChar := WideString.toList "int a[] = \x7b1\x7d, b = a, b;"

/-- The dimensions of the array are passed, and the second `b` ends the value of the first. -/
theorem initializers_within_declaration_repeatedName :
    ∃ data tokens t values, ofSource repeatedName = .ok (data, tokens) ∧
      (ofTokens data tokens (some repeatedName)).tokens[0]? = some t ∧ values.length = 3 ∧
      ValuesWithin (ofTokens data tokens (some repeatedName)).tokens 0 14 values ∧
      (ofTokens data tokens (some repeatedName)).initializers (some t.position)
        [("a", true), ("b", true), ("b", false)] = .ok [some "\x7b1\x7d", some "a", none] ∧
      TextsOf (ofTokens data tokens (some repeatedName)) values
        [some "\x7b1\x7d", some "a", none] := by
  have hreads : readsField repeatedName 0 14 [("a", true), ("b", true), ("b", false)]
      (.ok [some "\x7b1\x7d", some "a", none]) = true := by decide +kernel
  obtain ⟨data, tokens, t, hsource, ht, hend, hsemicolon, hbalanced, hfound⟩ :=
    exists_of_readsField hreads
  obtain ⟨values, hlength, hwithin, ⟨texts, htexts, htextsOf⟩ | ⟨-, -, hfault⟩⟩ :=
    initializers_within_declaration hsource (.inr rfl) ht hend hsemicolon hbalanced
      [("a", true), ("b", true), ("b", false)]
  · obtain rfl := Except.ok.inj (htexts.symm.trans hfound)
    exact ⟨data, tokens, t, values, hsource, ht, hlength, hwithin, hfound, htextsOf⟩
  · rw [hfound] at hfault
    cases hfault

/-- A field and a comment that ends inside an escape. -/
def brokenOff : List WideChar := WideString.toList "\nint a = 1;\n// \\u"

/-- The text before the end of this source is read twice, and has places for once.  So the value of the
second declaration is not read, though the declaration ends with a semicolon and has no brackets. -/
theorem initializers_fault_of_brokenOff :
    ∃ data tokens t, ofSource brokenOff = .ok (data, tokens) ∧
      (ofTokens data tokens (some brokenOff)).tokens[5]? = some t ∧
      (ofTokens data tokens (some brokenOff)).statementEnd (5 : Nat) = .ok ((9 : Nat) : Int) ∧
      Stands (ofTokens data tokens (some brokenOff)).tokens 9 ";" ∧
      Balanced (ofTokens data tokens (some brokenOff)).tokens 5 9 ∧
      (ofTokens data tokens (some brokenOff)).initializers (some t.position) [("a", true)] =
        .error .outOfRange :=
  exists_of_readsField (by decide +kernel)

end SourceDoc.TokenText
