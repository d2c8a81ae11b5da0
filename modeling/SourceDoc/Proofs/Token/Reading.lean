import SourceDoc.Proofs.Token.Lexeme

/-!
# How a text falls into tokens

`Reading place text items` says that a text, read from `place` on, falls into blanks, comments and
tokens, and lists each token with the place where it was read.  Cutting a text into tokens, where it
succeeds, is such a reading of the whole text (`exists_reading_of_ofSource`).

A step is made over a gap or over a token, and whatever holds of every reading is shown by one case
for each (`Reading.invariant`).  The starts of the tokens ascend (`Reading.index_lt`), and so
do their positions (`Reading.ascends`), so no two tokens have one position
(`Reading.position_injective`).
-/

namespace SourceDoc.Token

open SourceDoc.Text

/-! ### Places -/

namespace Place

@[simp] theorem over_index (place : Place) (gap : List WideChar) :
    (place.over gap).index = place.index + gap.length := rfl

@[simp] theorem over_line (place : Place) (gap : List WideChar) :
    (place.over gap).line = place.line + gap.count (.char '\n') := rfl

theorem over_column_of_mem {place : Place} {gap : List WideChar} (h : WideChar.char '\n' ∈ gap) :
    (place.over gap).column = (gap.reverse.takeWhile (· ≠ .char '\n')).length + 1 :=
  if_pos (List.contains_iff_mem.2 h)

theorem over_column_of_not_mem {place : Place} {gap : List WideChar}
    (h : WideChar.char '\n' ∉ gap) : (place.over gap).column = place.column + gap.length :=
  if_neg (mt List.contains_iff_mem.1 h)

@[simp] theorem after_index (place : Place) (length : Nat) :
    (place.after length).index = place.index + length := rfl

@[simp] theorem after_line (place : Place) (length : Nat) :
    (place.after length).line = place.line := rfl

@[simp] theorem after_column (place : Place) (length : Nat) :
    (place.after length).column = place.column + length := rfl

end Place

/-! ### Readings -/

/-- What may stand between tokens, before the given rest: blanks, or a comment. -/
def IsGap (gap rest : List WideChar) : Prop :=
  gap ≠ [] ∧ ((∀ c ∈ gap, isBlank c = true) ∨ commentLength (gap ++ rest) = .ok (some gap.length))

/-- A text, read from a place on, with the tokens that it falls into and the places where they were
read. -/
inductive Reading : Place → List WideChar → List (Place × Token) → Prop where
  | done (place : Place) : Reading place [] []
  | gap {place : Place} {gap rest : List WideChar} {items : List (Place × Token)}
      (hgap : IsGap gap rest) (hrest : Reading (place.over gap) rest items) :
      Reading place (gap ++ rest) items
  | token {place : Place} {c : WideChar} {text rest : List WideChar} {token : Token}
      {items : List (Place × Token)}
      (hlexeme : lexeme c (text ++ rest) = .ok (token.cls, text.length + 1))
      (htext : token.text = ⟨c :: text⟩)
      (hposition : token.position = ⟨place.line, place.column⟩)
      (hrest : Reading (place.after (text.length + 1)) rest items) :
      Reading place (c :: text ++ rest) ((place, token) :: items)

/-- Blanks are a gap, as many as there are. -/
theorem Reading.blanks {place : Place} {c : WideChar} {rest : List WideChar}
    {items : List (Place × Token)} (hblank : isBlank c = true)
    (h : Reading (place.over (c :: rest.takeWhile isBlank)) (rest.dropWhile isBlank) items) :
    Reading place (c :: rest) items := by
  have hsplit : c :: rest = (c :: rest.takeWhile isBlank) ++ rest.dropWhile isBlank := by
    rw [List.cons_append, List.takeWhile_append_dropWhile]
  rw [hsplit]
  refine .gap ⟨List.cons_ne_nil _ _, .inl ?_⟩ h
  intro d hd
  rcases List.mem_cons.1 hd with rfl | hd
  · exact hblank
  · exact List.mem_takeWhile_imp hd

/-- A comment is a gap. -/
theorem Reading.comment {place : Place} {text : List WideChar} {length : Nat}
    {items : List (Place × Token)} (hcomment : commentLength text = .ok (some length))
    (h : Reading (place.over (text.take length)) (text.drop length) items) :
    Reading place text items := by
  obtain ⟨hlo, hhi⟩ := commentLength_bounds hcomment
  have hlength : (text.take length).length = length := List.length_take_of_le hhi
  rw [← List.take_append_drop length text]
  refine .gap ⟨?_, .inr ?_⟩ h
  · intro hnil
    rw [hnil, List.length_nil] at hlength
    omega
  · rw [List.take_append_drop, hcomment, hlength]

/-- A lexeme is a token, with whatever comment stands before it. -/
theorem Reading.lexeme {place : Place} {c : WideChar} {rest : List WideChar} {cls : TokenClass}
    {length : Nat} {items : List (Place × Token)} {comment : Option WideString}
    (hlexeme : lexeme c rest = .ok (cls, length))
    (h : Reading (place.after length) ((c :: rest).drop length) items) :
    Reading place (c :: rest)
      ((place, ⟨cls, ⟨(c :: rest).take length⟩, ⟨place.line, place.column⟩, comment⟩) :: items) := by
  obtain ⟨hlo, hhi⟩ := (lexed_of_lexeme hlexeme).length_bounds
  obtain ⟨n, rfl⟩ : ∃ n, length = n + 1 := ⟨length - 1, by omega⟩
  have hn : (rest.take n).length = n := List.length_take_of_le (by omega)
  have hsplit : c :: rest = c :: rest.take n ++ rest.drop n := by
    rw [List.cons_append, List.take_append_drop]
  rw [List.take_succ_cons]
  rw [List.drop_succ_cons] at h
  rw [← List.take_append_drop n rest] at hlexeme
  rw [hsplit]
  refine .token ?_ rfl rfl ?_
  · rw [hn, hlexeme]
  · rwa [hn]

/-- Cutting the rest of a text into tokens is a reading of it, given a round for each of its code
points. -/
theorem exists_reading_of_tokensFrom {rounds : Nat} {place : Place} {previousEnd : Nat}
    {pending : Option WideString} {text : List WideChar} {tokens : List Token}
    (hrounds : text.length ≤ rounds)
    (h : tokensFrom rounds place previousEnd pending text = .ok tokens) :
    ∃ items, Reading place text items ∧ items.map Prod.snd = tokens := by
  induction rounds generalizing place previousEnd pending text tokens with
  | zero =>
    obtain rfl := List.eq_nil_of_length_eq_zero (Nat.le_zero.1 hrounds)
    cases h
    exact ⟨[], .done place, rfl⟩
  | succ rounds ih =>
    cases text with
    | nil =>
      cases h
      exact ⟨[], .done place, rfl⟩
    | cons c rest =>
      -- Each step takes at least one code point, so the rounds suffice for what is left.
      have hdrop : ∀ {n : Nat}, 1 ≤ n → ((c :: rest).drop n).length ≤ rounds := by
        intro n hn
        rw [List.length_drop]
        omega
      rw [tokensFrom] at h
      split at h
      · rename_i hblank
        have hlength : (rest.dropWhile isBlank).length ≤ rounds :=
          (List.dropWhile_sublist (l := rest) isBlank).length_le.trans (Nat.le_of_succ_le_succ hrounds)
        obtain ⟨items, hitems, htokens⟩ := ih hlength h
        exact ⟨items, hitems.blanks hblank, htokens⟩
      · split at h
        · cases h
        · rename_i length hcomment
          obtain ⟨hlo, -⟩ := commentLength_bounds hcomment
          obtain ⟨items, hitems, htokens⟩ := ih (hdrop (by omega)) h
          exact ⟨items, hitems.comment hcomment, htokens⟩
        · split at h
          · cases h
          · rename_i cls length hlexeme
            obtain ⟨later, hlater, rfl⟩ := Except.map_eq_ok h
            obtain ⟨items, hitems, rfl⟩ :=
              ih (hdrop (lexed_of_lexeme hlexeme).length_bounds.1) hlater
            exact ⟨_, hitems.lexeme hlexeme, rfl⟩

/-- **A source that falls into tokens has a reading of its whole decoded text.** -/
theorem exists_reading_of_ofSource {source : List WideChar} {data : List WideChar} {tokens : List Token}
    (h : ofSource source = .ok (data, tokens)) :
    ∃ items, Reading .start data items ∧ items.map Prod.snd = tokens := by
  unfold ofSource at h
  split at h
  · cases h
  · split at h
    · cases h
    · obtain ⟨rfl, rfl⟩ := Prod.mk.inj (Except.ok.inj h)
      exact exists_reading_of_tokensFrom le_rfl ‹_›

/-! ### What every step keeps -/

/-- **What holds where a reading begins, and is kept by every step over a gap and over a token, holds
where each of its tokens was read.**  The property may speak of the text and the tokens before the
place. -/
theorem Reading.invariant {P : List WideChar → List Token → Place → Prop}
    (hgap : ∀ {before held place gap}, P before held place → P (before ++ gap) held (place.over gap))
    (htoken : ∀ {before held place} {token : Token},
      token.position = ⟨place.line, place.column⟩ → P before held place →
      P (before ++ token.text.toList) (held ++ [token]) (place.after token.text.length))
    {place : Place} {text : List WideChar} {items : List (Place × Token)}
    (h : Reading place text items) (before : List WideChar) (held : List Token)
    (hstart : P before held place) {i : Nat} {p : Place} {t : Token}
    (hi : items[i]? = some (p, t)) :
    ∃ read later, text = read ++ (t.text.toList ++ later) ∧
      t.position = ⟨p.line, p.column⟩ ∧ P (before ++ read) (held ++ (items.map Prod.snd).take i) p := by
  induction h generalizing before held i with
  | done => cases hi
  | @gap place gap rest items _ hrest ih =>
    obtain ⟨read, later, rfl, hposition, hp⟩ := ih _ _ (hgap hstart) hi
    refine ⟨gap ++ read, later, by rw [List.append_assoc], hposition, ?_⟩
    rwa [← List.append_assoc]
  | @token place c text rest token items hlexeme htext hposition hrest ih =>
    have hlist : token.text.toList = c :: text := by rw [htext]
    cases i with
    | zero =>
      obtain ⟨rfl, rfl⟩ := Prod.mk.inj (Option.some.inj hi)
      refine ⟨[], rest, by rw [hlist, List.nil_append], hposition, ?_⟩
      rwa [List.append_nil, List.take_zero, List.append_nil]
    | succ i =>
      have hstep := htoken hposition hstart
      rw [hlist, WideString.length, hlist, List.length_cons] at hstep
      obtain ⟨read, later, rfl, hposition', hp⟩ := ih _ _ hstep hi
      refine ⟨c :: text ++ read, later, by rw [List.append_assoc], hposition', ?_⟩
      rwa [List.append_assoc held, List.append_assoc before] at hp

/-! ### The order of places -/

/-- Nothing is read before the index where a reading begins. -/
theorem Reading.start_index_le {place : Place} {text : List WideChar}
    {items : List (Place × Token)} (h : Reading place text items) :
    ∀ item ∈ items, place.index ≤ item.1.index := by
  induction h with
  | done => intro item hitem; cases hitem
  | gap _ _ ih =>
    intro item hitem
    have := ih item hitem
    rw [Place.over_index] at this
    omega
  | token _ _ _ _ ih =>
    intro item hitem
    rcases List.mem_cons.1 hitem with rfl | hitem
    · exact le_rfl
    · have := ih item hitem
      rw [Place.after_index] at this
      omega

/-- **Every token of a reading begins behind the starts of the tokens before it.** -/
theorem Reading.index_lt {place : Place} {text : List WideChar} {items : List (Place × Token)}
    (h : Reading place text items) : items.Pairwise fun a b => a.1.index < b.1.index := by
  induction h with
  | done => exact .nil
  | gap _ _ ih => exact ih
  | token _ _ _ hrest ih =>
    refine .cons (fun item hitem => ?_) ih
    have := hrest.start_index_le item hitem
    rw [Place.after_index] at this
    dsimp only
    omega

/-- The order of positions: by lines, and by columns within a line. -/
def Position.Before (p q : Position) : Prop :=
  p.line < q.line ∨ p.line = q.line ∧ p.column < q.column

/-- Nothing is read before the place where a reading begins. -/
theorem Reading.start_le {place : Place} {text : List WideChar} {items : List (Place × Token)}
    (h : Reading place text items) :
    ∀ t ∈ items.map Prod.snd, place.line < t.position.line ∨
      place.line = t.position.line ∧ place.column ≤ t.position.column := by
  induction h with
  | done => intro t ht; cases ht
  | @gap place gap rest items _ _ ih =>
    intro t ht
    have hlater := ih t ht
    by_cases hline : WideChar.char '\n' ∈ gap
    · have := List.count_pos_iff.2 hline
      rw [Place.over_line] at hlater
      omega
    · rw [Place.over_line, Place.over_column_of_not_mem hline] at hlater
      omega
  | token _ _ hposition _ ih =>
    intro t ht
    rcases List.mem_cons.1 ht with rfl | ht
    · exact .inr (by rw [hposition]; exact ⟨rfl, le_rfl⟩)
    · have hlater := ih t ht
      rw [Place.after_line, Place.after_column] at hlater
      omega

/-- **The positions of the tokens of a reading ascend.** -/
theorem Reading.ascends {place : Place} {text : List WideChar} {items : List (Place × Token)}
    (h : Reading place text items) :
    (items.map Prod.snd).Pairwise fun t u => Position.Before t.position u.position := by
  induction h with
  | done => exact .nil
  | gap _ _ ih => exact ih
  | token _ _ hposition hrest ih =>
    refine .cons (fun t ht => ?_) ih
    have hlater := hrest.start_le t ht
    rw [Place.after_line, Place.after_column] at hlater
    rw [Position.Before, hposition]
    dsimp only
    omega

/-- **No two tokens of a reading have one position.** -/
theorem Reading.position_injective {place : Place} {text : List WideChar}
    {items : List (Place × Token)} (h : Reading place text items) {i j : Nat} {t u : Token}
    (hi : (items.map Prod.snd)[i]? = some t) (hj : (items.map Prod.snd)[j]? = some u)
    (htu : t.position = u.position) : i = j := by
  have hlt : ∀ {i j : Nat} {t u : Token}, (items.map Prod.snd)[i]? = some t →
      (items.map Prod.snd)[j]? = some u → i < j → t.position ≠ u.position := by
    intro i j t u hi hj hij heq
    obtain ⟨hi', rfl⟩ := List.getElem?_eq_some_iff.1 hi
    obtain ⟨hj', rfl⟩ := List.getElem?_eq_some_iff.1 hj
    have hbefore := List.pairwise_iff_getElem.1 h.ascends i j hi' hj' hij
    rw [Position.Before, heq] at hbefore
    omega
  rcases Nat.lt_trichotomy i j with hij | hij | hij
  · exact absurd htu (hlt hi hj hij)
  · exact hij
  · exact absurd htu.symm (hlt hj hi hij)

/-! ### Classes and texts -/

/-- A token whose class fits its text. -/
structure Proper (token : Token) : Prop where
  /-- Marks are separators. -/
  mark : token.value ∈ marks.map String.singleton → token.cls = .separator
  /-- Names, modifiers and basic types have the class of their word. -/
  word : token.cls ∈ [TokenClass.identifier, .modifier, .basicType] →
    token.cls = classOfWord token.value
  /-- They begin as words do. -/
  start : token.cls ∈ [TokenClass.identifier, .modifier, .basicType] →
    ∃ ch, token.value.toList.head? = some ch ∧ isIdentifierStart ch = true

/-- **The tokens of a reading have classes that fit their texts.** -/
theorem Reading.proper {place : Place} {text : List WideChar} {items : List (Place × Token)}
    (h : Reading place text items) : ∀ token ∈ items.map Prod.snd, Proper token := by
  induction h with
  | done => intro token htoken; cases htoken
  | gap _ _ ih => exact ih
  | @token place c text rest token items hlexeme htext _ _ ih =>
    intro t ht
    rcases List.mem_cons.1 ht with rfl | ht
    · have hlexed := lexed_of_lexeme hlexeme
      have htake : (c :: (text ++ rest)).take (text.length + 1) = c :: text := by
        rw [List.take_succ_cons, List.take_left]
      refine ⟨fun hmark => hlexed.cls_eq_separator ?_, fun hcls => ?_, fun hcls => ?_⟩
      · rwa [htake, ← htext]
      · have hword := (hlexed.cls_eq_classOfWord hcls).1
        rwa [htake, ← htext] at hword
      · have hstart := (hlexed.cls_eq_classOfWord hcls).2
        rw [Token.value, htext]
        cases c with
        | surrogate i => cases hstart
        | char ch =>
          exact ⟨ch, by simp [WideString.toString, WideChar.toChar], hstart⟩
    · exact ih t ht

end SourceDoc.Token
