import SourceDoc.Proofs.Span.Index
import Mathlib.Tactic.Set

/-!
# Where tokens start

A token carries its line and its column, and where it starts in the text is counted back from these
and from a table of the places where lines start.  Reading counts line feeds in blanks and comments
only, while the table has an entry for every line feed of the text: the two agree as long as no
token on an earlier line holds a line feed.

`Counted` is the invariant of reading that ties the two counts.  The main result,
`offset_eq_index_iff`, says for every token of every source when its start is found, and that under
this condition the tokens are found in the text, one behind the other.
-/

namespace SourceDoc.Token

open SourceDoc.Text TokenText

/-! ### The table of lines -/

/-- Whether a line starts behind the text. -/
def EndsLine (front : List WideChar) : Prop := front = [] ∨ front.getLast? = some (.char '\n')

theorem lineStartsFrom_append (place : Nat) (a b : List WideChar) :
    lineStartsFrom place (a ++ b) = lineStartsFrom place a ++ lineStartsFrom (place + a.length) b := by
  induction a generalizing place with
  | nil => rfl
  | cons c rest ih =>
    rw [List.cons_append, lineStartsFrom, lineStartsFrom, ih, List.length_cons,
      Nat.add_right_comm, Nat.add_assoc]
    split <;> rfl

theorem length_lineStartsFrom (place : Nat) (text : List WideChar) :
    (lineStartsFrom place text).length = text.count (.char '\n') := by
  induction text generalizing place with
  | nil => rfl
  | cons c rest ih =>
    rw [lineStartsFrom, List.count_cons]
    split
    · rename_i hc
      rw [List.length_cons, ih, if_pos (beq_iff_eq.2 hc)]
    · rename_i hc
      rw [ih, if_neg (mt beq_iff_eq.1 hc), Nat.add_zero]

theorem lt_of_mem_lineStartsFrom {place start : Nat} {text : List WideChar}
    (h : start ∈ lineStartsFrom place text) : place < start := by
  induction text generalizing place with
  | nil => cases h
  | cons c rest ih =>
    rw [lineStartsFrom] at h
    split at h
    · rcases List.mem_cons.1 h with rfl | h
      · omega
      · have := ih h
        omega
    · have := ih h
      omega

theorem pairwise_lineStartsFrom (place : Nat) (text : List WideChar) :
    (lineStartsFrom place text).Pairwise (· < ·) := by
  induction text generalizing place with
  | nil => exact .nil
  | cons c rest ih =>
    rw [lineStartsFrom]
    split
    · exact .cons (fun start hstart => lt_of_mem_lineStartsFrom hstart) (ih _)
    · exact ih _

/-- Lines start further and further on. -/
theorem pairwise_lineStarts (data : List WideChar) : (lineStarts data).Pairwise (· < ·) :=
  .cons (fun _ hstart => lt_of_mem_lineStartsFrom hstart) (pairwise_lineStartsFrom 0 data)

/-- The table tells where a line starts, if asked by the number of line feeds before it. -/
theorem lineStarts_count {front rest : List WideChar} (h : EndsLine front) :
    (lineStarts (front ++ rest))[front.count (.char '\n')]? = some front.length := by
  rcases h with rfl | h
  · rfl
  · obtain ⟨init, rfl⟩ := List.getLast?_eq_some_iff.1 h
    rw [lineStarts, lineStartsFrom_append, lineStartsFrom_append, List.count_append,
      List.count_singleton_self, List.getElem?_cons_succ, List.append_assoc,
      List.getElem?_append_right (by rw [length_lineStartsFrom]), length_lineStartsFrom, Nat.sub_self]
    simp [lineStartsFrom]

/-! ### Counting lines while reading -/

/-- The number of line feeds in some tokens. -/
def feeds (tokens : List Token) : Nat := (tokens.flatMap (·.text.toList)).count (.char '\n')

/-- The number of line feeds in the tokens on lines before the given one. -/
def feedsAbove (line : Nat) (tokens : List Token) : Nat :=
  feeds (tokens.filter (·.position.line < line))

/-- What a place says about the text and the tokens before it. -/
structure Counted (before : List WideChar) (held : List Token) (place : Place) : Prop where
  /-- As many code points were read as the index says. -/
  index_eq : place.index = before.length
  /-- Lines are counted from one. -/
  line_pos : 1 ≤ place.line
  /-- No token stands on a later line. -/
  line_le : ∀ t ∈ held, t.position.line ≤ place.line
  /-- The line counts the line feeds read, but for those in tokens. -/
  total : before.count (.char '\n') + 1 = place.line + feeds held
  /-- The column counts from the start of a line; the line feeds before that start are counted but for
  those in tokens on earlier lines. -/
  line : ∃ front tail, before = front ++ tail ∧ EndsLine front ∧ place.column = tail.length + 1 ∧
    front.count (.char '\n') + 1 = place.line + feedsAbove place.line held

/-- Where no token stands on a later line, those above the next line are all of them. -/
theorem feedsAbove_of_lt {line : Nat} {tokens : List Token}
    (h : ∀ t ∈ tokens, t.position.line < line) : feedsAbove line tokens = feeds tokens := by
  rw [feedsAbove, List.filter_eq_self.2 fun t ht => decide_eq_true (h t ht)]

/-- No line feeds stand above a line exactly if no token above it holds one. -/
theorem feedsAbove_eq_zero_iff {line : Nat} {tokens : List Token} :
    feedsAbove line tokens = 0 ↔
      ∀ t ∈ tokens, t.position.line < line → WideChar.char '\n' ∉ t.text.toList := by
  rw [feedsAbove, feeds, List.count_eq_zero, List.mem_flatMap]
  simp only [List.mem_filter, decide_eq_true_eq, not_exists, not_and, and_imp]

/-- A gap with line feeds falls into what stands before its last line and that line. -/
theorem exists_last_line {gap : List WideChar} (h : WideChar.char '\n' ∈ gap) :
    ∃ front tail, gap = front ++ tail ∧ front.getLast? = some (.char '\n') ∧
      WideChar.char '\n' ∉ tail ∧ (gap.reverse.takeWhile (· ≠ .char '\n')).length = tail.length := by
  set p : WideChar → Bool := (· ≠ .char '\n') with hp
  have hsplit := List.takeWhile_append_dropWhile (p := p) (l := gap.reverse)
  refine ⟨(gap.reverse.dropWhile p).reverse, (gap.reverse.takeWhile p).reverse, ?_, ?_, ?_, ?_⟩
  · rw [← List.reverse_append, hsplit, List.reverse_reverse]
  · rw [List.getLast?_reverse]
    have hne : gap.reverse.dropWhile p ≠ [] := by
      rw [ne_eq, List.dropWhile_eq_nil_iff]
      intro hall
      have := hall _ (List.mem_reverse.2 h)
      simp [hp] at this
    have hhead := List.head_dropWhile_not p hne
    rw [List.head?_eq_some_head hne]
    simpa [hp] using hhead
  · intro hmem
    have := List.mem_takeWhile_imp (List.mem_reverse.1 hmem)
    simp [hp] at this
  · rw [List.length_reverse]

theorem Counted.start : Counted [] [] .start where
  index_eq := rfl
  line_pos := le_rfl
  line_le := fun _ ht => nomatch ht
  total := rfl
  line := ⟨[], [], rfl, .inl rfl, rfl, rfl⟩

/-- Reading over a gap counts its line feeds. -/
theorem Counted.over {before : List WideChar} {held : List Token} {place : Place}
    (h : Counted before held place) (gap : List WideChar) :
    Counted (before ++ gap) held (place.over gap) where
  index_eq := by rw [Place.over_index, h.index_eq, List.length_append]
  line_pos := h.line_pos.trans (Nat.le_add_right _ _)
  line_le := fun t ht => (h.line_le t ht).trans (Nat.le_add_right _ _)
  total := by
    have := h.total
    rw [List.count_append, Place.over_line]
    omega
  line := by
    by_cases hline : WideChar.char '\n' ∈ gap
    · -- A new line starts behind the last line feed, below all tokens so far.
      obtain ⟨front, tail, rfl, hfront, htail, hlength⟩ := exists_last_line hline
      refine ⟨before ++ front, tail, by rw [List.append_assoc], .inr ?_, ?_, ?_⟩
      · rw [List.getLast?_append, hfront, Option.some_or]
      · rw [Place.over_column_of_mem hline, hlength]
      · have hpos := List.count_pos_iff.2 hline
        have htotal := h.total
        rw [Place.over_line, feedsAbove_of_lt fun t ht => by have := h.line_le t ht; omega,
          List.count_append, List.count_append, List.count_eq_zero_of_not_mem htail]
        omega
    · obtain ⟨front, tail, rfl, hfront, hcolumn, hcount⟩ := h.line
      refine ⟨front, tail ++ gap, by rw [List.append_assoc], hfront, ?_, ?_⟩
      · rw [Place.over_column_of_not_mem hline, hcolumn, List.length_append]
        omega
      · rw [Place.over_line, List.count_eq_zero_of_not_mem hline]
        exact hcount

/-- Reading over a token leaves its line feeds uncounted. -/
theorem Counted.after {before : List WideChar} {held : List Token} {place : Place} {token : Token}
    (hposition : token.position = ⟨place.line, place.column⟩) (h : Counted before held place) :
    Counted (before ++ token.text.toList) (held ++ [token]) (place.after token.text.length) where
  index_eq := by rw [Place.after_index, h.index_eq, List.length_append, WideString.length]
  line_pos := h.line_pos
  line_le := fun t ht => by
    rcases List.mem_append.1 ht with ht | ht
    · exact h.line_le t ht
    · rw [List.mem_singleton.1 ht, hposition]
      exact le_rfl
  total := by
    have := h.total
    rw [feeds] at this ⊢
    rw [List.count_append, List.flatMap_append, List.count_append, List.flatMap_singleton,
      Place.after_line]
    omega
  line := by
    obtain ⟨front, tail, rfl, hfront, hcolumn, hcount⟩ := h.line
    refine ⟨front, tail ++ token.text.toList, by rw [List.append_assoc], hfront, ?_, ?_⟩
    · rw [Place.after_column, hcolumn, List.length_append, WideString.length]
      omega
    · have hnot : (decide (token.position.line < place.line)) = false := by
        rw [hposition]
        exact decide_eq_false (Nat.lt_irrefl _)
      rw [Place.after_line, feedsAbove, List.filter_append, List.filter_cons, hnot]
      simpa [feedsAbove] using hcount

/-! ### Starts -/

/-- The table has an entry for the line of every place.  Counting from it leads to the place exactly if
no token above the line holds a line feed, and otherwise to a place before it. -/
theorem Counted.lineStarts {before : List WideChar} {held : List Token} {place : Place}
    (h : Counted before held place) (rest : List WideChar) :
    ∃ start, (lineStarts (before ++ rest))[place.line - 1]? = some start ∧
      start + place.column - 1 ≤ place.index ∧
      (start + place.column - 1 = place.index ↔ feedsAbove place.line held = 0) := by
  obtain ⟨front, tail, rfl, hfront, hcolumn, hcount⟩ := h.line
  have hindex := h.index_eq
  have hpos := h.line_pos
  have hentry := @lineStarts_count front (tail ++ rest) hfront
  rw [← List.append_assoc] at hentry
  obtain ⟨hlt, hget⟩ := List.getElem?_eq_some_iff.1 hentry
  have hlt' : place.line - 1 < (TokenText.lineStarts (front ++ tail ++ rest)).length := by omega
  rw [List.length_append] at hindex
  -- Entries ascend, so the entry for the line is not behind the one for the start of the line.
  have hbefore := fun hne => List.pairwise_iff_getElem.1
    (pairwise_lineStarts (front ++ tail ++ rest)) _ _ hlt' hlt hne
  refine ⟨_, List.getElem?_eq_getElem hlt', ?_, ?_, ?_⟩
  · rcases Nat.eq_or_lt_of_le (show place.line - 1 ≤ front.count (.char '\n') by omega) with hsame | hne
    · simp only [hsame, hget]
      omega
    · have := hbefore hne
      omega
  · intro hstart
    by_contra hne
    have := hbefore (by omega)
    omega
  · intro hzero
    have hsame : place.line - 1 = front.count (.char '\n') := by omega
    simp only [hsame, hget]
    omega

/-- The start of a token is counted from the entry for its line. -/
theorem offset_of_lineStarts {src : TokenText} {i start : Nat} {t : Token}
    (ht : src.tokens[i]? = some t)
    (hstart : (TokenText.lineStarts src.data)[t.position.line - 1]? = some start) :
    src.offset i = .ok (start + t.position.column - 1) := by
  rw [offset, token_natCast ht]
  simp only [bind, Except.bind, hstart]
  rfl

/-- The tokens of which none holds a line feed before a token on a later line. -/
def Unbroken (tokens : List Token) : Prop :=
  tokens.Pairwise fun t u => t.position.line < u.position.line → WideChar.char '\n' ∉ t.text.toList

instance (tokens : List Token) : Decidable (Unbroken tokens) :=
  inferInstanceAs (Decidable (List.Pairwise _ _))

/-- Every token has a start where its text stands, behind the starts of the tokens before it. -/
def Found (src : TokenText) : Prop :=
  ∀ (i : Nat) (t : Token), src.tokens[i]? = some t →
    ∃ start, src.offset i = .ok start ∧
      (src.data.drop start).take t.text.length = t.text.toList ∧
      ∀ j < i, ∃ earlier, src.offset j = .ok earlier ∧ earlier < start

/-- Where a token of a reading was read, with the counts there. -/
theorem Reading.counted {data : List WideChar} {items : List (Place × Token)}
    (h : Reading .start data items) {i : Nat} {place : Place} {t : Token}
    (hi : items[i]? = some (place, t)) :
    ∃ read later, data = read ++ (t.text.toList ++ later) ∧
      t.position = ⟨place.line, place.column⟩ ∧
      Counted read ((items.map Prod.snd).take i) place := by
  obtain ⟨read, later, hdata, hposition, hcounted⟩ :=
    h.invariant (P := Counted) (fun h => h.over _) Counted.after [] [] Counted.start hi
  exact ⟨read, later, hdata, hposition, hcounted⟩

theorem Reading.offset_iff {data : List WideChar} {items : List (Place × Token)}
    (h : Reading .start data items) (written : Option (List WideChar)) {i : Nat} {place : Place}
    {t : Token} (hi : items[i]? = some (place, t)) :
    (ofTokens data (items.map Prod.snd) written).offset i = .ok place.index ↔
      ∀ earlier ∈ (items.map Prod.snd).take i, earlier.position.line < t.position.line →
        WideChar.char '\n' ∉ earlier.text.toList := by
  obtain ⟨read, later, hdata, hposition, hcounted⟩ := h.counted hi
  obtain ⟨start, hstart, -, hiff⟩ := hcounted.lineStarts (t.text.toList ++ later)
  rw [← hdata] at hstart
  have ht : (ofTokens data (items.map Prod.snd) written).tokens[i]? = some t := by
    simp [ofTokens, hi]
  have hline : t.position.line = place.line := by rw [hposition]
  have hcolumn : t.position.column = place.column := by rw [hposition]
  rw [offset_of_lineStarts ht (by rw [hline]; exact hstart), hcolumn, hline,
    ← feedsAbove_eq_zero_iff, ← hiff]
  exact ⟨Except.ok.inj, congrArg Except.ok⟩

/-- Where every start is found, the tokens are found in the text, one behind the other. -/
theorem Reading.found {data : List WideChar} {items : List (Place × Token)}
    (h : Reading .start data items) (written : Option (List WideChar))
    (hunbroken : Unbroken (items.map Prod.snd)) :
    Found (ofTokens data (items.map Prod.snd) written) := by
  have hoffset : ∀ {i : Nat} {item : Place × Token}, items[i]? = some item →
      (ofTokens data (items.map Prod.snd) written).offset i = .ok item.1.index := by
    intro i item hi
    refine (h.offset_iff written hi).2 fun earlier hearlier => ?_
    obtain ⟨j, hj, rfl⟩ := List.mem_take_iff_getElem.1 hearlier
    obtain ⟨hi', rfl⟩ := List.getElem?_eq_some_iff.1 hi
    have hpair := List.pairwise_iff_getElem.1 hunbroken j i (by omega)
      (by rwa [List.length_map]) (by omega)
    rwa [List.getElem_map _ (i := i)] at hpair
  intro i t ht
  simp only [ofTokens, List.getElem?_toArray, List.getElem?_map, Option.map_eq_some_iff] at ht
  obtain ⟨⟨place, t⟩, hi, rfl⟩ := ht
  refine ⟨place.index, hoffset hi, ?_, ?_⟩
  · obtain ⟨read, later, hdata, -, hcounted⟩ := h.counted hi
    have hread : (ofTokens data (items.map Prod.snd) written).data = data := rfl
    rw [hread, hcounted.index_eq, hdata, List.drop_left, WideString.length, List.take_left]
  · intro j hj
    obtain ⟨hi', hget⟩ := List.getElem?_eq_some_iff.1 hi
    refine ⟨_, hoffset (List.getElem?_eq_getElem (Nat.lt_trans hj hi')), ?_⟩
    have := List.pairwise_iff_getElem.1 h.index_lt j i (Nat.lt_trans hj hi') hi' hj
    rwa [hget] at this

/-- **The start of a token is found exactly if no token on an earlier line holds a line feed.**  So
the tokens of a source are found in its text, one behind the other, if no token holds a line feed
before a token on a later line. -/
theorem offset_eq_index_iff {source : List WideChar} {data : List WideChar} {tokens : List Token}
    (h : ofSource source = .ok (data, tokens)) (written : Option (List WideChar)) :
    ∃ items, Reading .start data items ∧ items.map Prod.snd = tokens ∧
      (∀ (i : Nat) (place : Place) (t : Token), items[i]? = some (place, t) →
        ((ofTokens data tokens written).offset i = .ok place.index ↔
          ∀ earlier ∈ tokens.take i, earlier.position.line < t.position.line →
            WideChar.char '\n' ∉ earlier.text.toList)) ∧
      (Unbroken tokens → Found (ofTokens data tokens written)) := by
  obtain ⟨items, hreading, rfl⟩ := exists_reading_of_ofSource h
  exact ⟨items, hreading, rfl, fun _ _ _ hi => hreading.offset_iff written hi,
    hreading.found written⟩

/-- A comment may hold line feeds, and the tokens behind it are found. -/
theorem found_behind_comment :
    ∃ data tokens, ofSource (WideString.toList "/*\n*/ a\n \"x\"") = .ok (data, tokens) ∧
      tokens.length = 2 ∧ Unbroken tokens ∧ Found (ofTokens data tokens none) := by
  have h : ofSource (WideString.toList "/*\n*/ a\n \"x\"") =
      .ok (WideString.toList "/*\n*/ a\n \"x\"",
        [⟨.identifier, "a", ⟨2, 4⟩, none⟩, ⟨.string, "\"x\"", ⟨3, 2⟩, none⟩]) := by
    decide +kernel
  have hunbroken : Unbroken
      [⟨.identifier, "a", ⟨2, 4⟩, none⟩, ⟨.string, "\"x\"", ⟨3, 2⟩, none⟩] := by decide
  obtain ⟨_, _, _, _, hfound⟩ := offset_eq_index_iff h none
  exact ⟨_, _, h, rfl, hunbroken, hfound hunbroken⟩

/-- A literal that holds a line feed moves the starts on later lines: here the last token, the name
`b`, is sought at the quote that closes the literal. -/
theorem not_found_behind_broken_literal :
    ∃ data tokens, ofSource ['"', '\n', '"', ' ', 'a', '\n', 'b'] = .ok (data, tokens) ∧
      tokens.length = 3 ∧ (ofTokens data tokens none).offset 2 = .ok 2 ∧
      ¬ Found (ofTokens data tokens none) := by
  have h : ofSource ['"', '\n', '"', ' ', 'a', '\n', 'b'] =
      .ok (['"', '\n', '"', ' ', 'a', '\n', 'b'].map .char,
        [⟨.string, "\"\n\"", ⟨1, 1⟩, none⟩, ⟨.identifier, "a", ⟨1, 5⟩, none⟩,
          ⟨.identifier, "b", ⟨2, 1⟩, none⟩]) := by
    decide +kernel
  refine ⟨_, _, h, rfl, rfl, fun hfound => ?_⟩
  obtain ⟨start, hstart, htext, -⟩ := hfound 2 _ rfl
  cases hstart
  revert htext
  decide

end SourceDoc.Token
