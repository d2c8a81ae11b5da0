import SourceDoc.Proofs.Escape.Regular

/-!
# Texts cut from a source by its table

A source spells its decoded text (`Spelled`): it falls into characters that stand for themselves, pairs
of a backslash and another character, and escapes.  The table of offsets leads from each place of the
decoded text to a place of the source, and cuts the source into two parts that spell the two parts of
the text, unless it cuts a pair of backslashes in two (`Spelled.split`).  So what is cut out between two
places is decoded to the text between them, but for the second of two backslashes in front of it
(`Spelled.slice`).
-/

namespace SourceDoc.Escape

open WideChar (char)

/-! ### What a source spells -/

/-- A source in which every escape has four hexadecimal digits, and its decoded text. -/
inductive Spelled : List WideChar → List WideChar → Prop
  | nil : Spelled [] []
  | plain {c : WideChar} {source : List WideChar} {text : List WideChar} (hc : c ≠ char '\\')
      (h : Spelled source text) : Spelled (c :: source) (c :: text)
  | lone : Spelled [char '\\'] [char '\\']
  | pair {c : WideChar} {source : List WideChar} {text : List WideChar} (hc : c ≠ char 'u')
      (h : Spelled source text) : Spelled (char '\\' :: c :: source) (char '\\' :: c :: text)
  | escape {n : Nat} {digits source : List WideChar} {point : WideChar} {text : List WideChar}
      (hlen : digits.length = 4) (hhex : digits.all isHexDigit)
      (hpoint : pointOfDigits digits = .ok point) (h : Spelled source text) :
      Spelled (char '\\' :: (List.replicate (n + 1) (char 'u') ++ (digits ++ source))) (point :: text)

theorem decodeFrom_escape (piece : List WideChar) (n : Nat) {digits : List WideChar}
    (source : List WideChar) (hlen : digits.length = 4) (hhex : digits.all isHexDigit) :
    decodeFrom piece .plain (char '\\' :: (List.replicate (n + 1) (char 'u') ++ (digits ++ source))) = do
      let point ← pointOfDigits digits
      return point :: (← decodeFrom [] .plain source) := by
  obtain ⟨c, rest, hdigits⟩ : ∃ c rest, digits ++ source = c :: rest := by
    cases digits with
    | nil => cases hlen
    | cons c digits => exact ⟨c, digits ++ source, rfl⟩
  have hc : c ≠ char 'u' := by
    have h : (digits ++ source).head? ≠ some (char 'u') := head?_digits_append hlen hhex
    rw [hdigits] at h
    exact fun hc => h (congrArg some hc)
  rw [← map_point_traceFrom piece 0, hdigits, traceFrom_escape piece 0 n rest hc, ← hdigits,
    List.take_left' hlen, List.drop_left' hlen, ← map_point_traceFrom [] (0 + n + 6)]
  cases pointOfDigits digits with
  | error fault => rfl
  | ok point => cases traceFrom [] (0 + n + 6) .plain source <;> rfl

/-- **What a source spells is what it is decoded to.** -/
theorem Spelled.decodeFrom {source : List WideChar} {text : List WideChar} (h : Spelled source text)
    (piece : List WideChar) : decodeFrom piece .plain source = .ok text := by
  induction h generalizing piece with
  | nil => rfl
  | plain hc _ ih =>
    rw [Escape.decodeFrom, if_neg hc, ih]
    rfl
  | lone => rfl
  | pair hc _ ih =>
    rw [Escape.decodeFrom, if_pos rfl, Escape.decodeFrom, if_neg hc, ih]
    rfl
  | escape hlen hhex hpoint _ ih =>
    rw [decodeFrom_escape piece _ _ hlen hhex, hpoint, ih]
    rfl

theorem Spelled.decode {source : List WideChar} {text : List WideChar} (h : Spelled source text) :
    Escape.decode source = .ok text :=
  h.decodeFrom []

/-- A backslash with a `u` behind it stands in the text. -/
def ShowsEscape (text : List WideChar) : Prop := [char '\\', char 'u'] <:+: text

theorem ShowsEscape.cons {c : WideChar} {text : List WideChar} (h : ShowsEscape text) :
    ShowsEscape (c :: text) :=
  h.trans (List.suffix_cons c text).isInfix

/-- **A regular source spells its decoded text, if no escape is left in that.** -/
theorem spelled_of_regular {fresh : Bool} {source : List WideChar} (hregular : Regular fresh source)
    {piece : List WideChar} {text : List WideChar} (hdecoded : decodeFrom piece .plain source = .ok text)
    (hplain : ¬ ShowsEscape text) : Spelled source text := by
  induction hregular generalizing piece text with
  | nil =>
    cases hdecoded
    exact .nil
  | plain hc _ ih =>
    rw [decodeFrom, if_neg hc] at hdecoded
    obtain ⟨tail, htail, rfl⟩ := Except.map_eq_ok hdecoded
    exact .plain hc (ih htail fun h => hplain h.cons)
  | lone =>
    cases hdecoded
    exact .lone
  | pair hc _ ih =>
    rw [decodeFrom, if_pos rfl, decodeFrom, if_neg hc] at hdecoded
    obtain ⟨tail, htail, rfl⟩ := Except.map_eq_ok hdecoded
    exact .pair hc (ih htail fun h => hplain h.cons.cons)
  | @cut n =>
    -- Such a source is decoded to a text that still ends with the unfinished escape.
    refine absurd ?_ hplain
    rw [← map_point_traceFrom piece piece.length, traceFrom_cut] at hdecoded
    obtain rfl := Except.ok.inj hdecoded
    show ShowsEscape ((Origin.literals _ _).map (·.point))
    rw [map_point_literals, ShowsEscape]
    refine List.IsInfix.trans ?_ (List.suffix_append _ _).isInfix
    exact ⟨[], List.replicate n (char 'u'), rfl⟩
  | escape hlen hhex _ ih =>
    rw [decodeFrom_escape piece _ _ hlen hhex] at hdecoded
    obtain ⟨point, hpoint, hdecoded⟩ := Except.bind_eq_ok hdecoded
    obtain ⟨tail, htail, hdecoded⟩ := Except.bind_eq_ok hdecoded
    cases hdecoded
    exact .escape hlen hhex hpoint (ih htail fun h => hplain h.cons)

/-- What is regular behind a text is so behind an escape. -/
theorem Regular.fresh {source : List WideChar} (h : Regular false source) : Regular true source := by
  cases h with
  | nil => exact .nil
  | plain hc h => exact .plain hc h
  | lone => exact .lone
  | pair hc h => exact .pair hc h
  | escape hlen hhex h => exact .escape hlen hhex h

theorem Regular.append {front rest : List WideChar} (hfront : char '\\' ∉ front) (h : Regular false rest) :
    Regular false (front ++ rest) := by
  induction front with
  | nil => exact h
  | cons c front ih =>
    rw [List.mem_cons, not_or] at hfront
    exact .plain (Ne.symm hfront.1) (ih hfront.2)

/-! ### Places of the table -/

theorem offsetsFrom_digits (place n : Nat) {digits : List WideChar} (source : List WideChar)
    (hlen : digits.length = 4) (hhex : digits.all isHexDigit) :
    offsetsFrom place true 0 (char '\\' :: (List.replicate (n + 1) (char 'u') ++ (digits ++ source))) =
      place :: offsetsFrom (place + n + 6) true 0 source := by
  rw [offsetsFrom_written place n (head?_digits_append hlen hhex)
    (by rw [List.take_left' hlen]; exact hlen) (by rw [List.take_left' hlen]; exact hhex),
    List.drop_left' hlen]

/-- The rest of a source, which begins at a place, spells a text, and the given entries are its
table. -/
def Spells (place : Nat) (source : List WideChar) (text : List WideChar) (entries : List Nat) : Prop :=
  Spelled source text ∧ entries = offsetsFrom place true 0 source

/-- The table of a source, which begins at a place, cuts it behind a front, at the entry for the end of
the front's text.  Both parts spell their texts, or both parts but for the second of two backslashes
with which the rest begins. -/
structure Cuts (place : Nat) (front rest : List WideChar) (head tail : List WideChar) : Prop where
  /-- The entry leads behind the front. -/
  entry : (offsetsFrom place true 0 (front ++ rest))[head.length]? = some (place + front.length)
  /-- The front spells its text. -/
  spelled : Spelled front head
  /-- The rest spells its text. -/
  spells : Spells (place + front.length) rest tail
      ((offsetsFrom place true 0 (front ++ rest)).drop head.length) ∨
    ∃ rest' tail', rest = char '\\' :: rest' ∧ tail = char '\\' :: tail' ∧
      Spells (place + front.length + 1) rest' tail'
        ((offsetsFrom place true 0 (front ++ rest)).drop (head.length + 1))

theorem cuts_start {source : List WideChar} {text : List WideChar} (h : Spelled source text)
    (place : Nat) : Cuts place [] source [] text where
  entry := by
    rw [List.length_nil, ← List.head?_eq_getElem?, head?_offsetsFrom]
    rfl
  spelled := .nil
  spells := .inl ⟨h, rfl⟩

/-- A piece in front of a source puts the entries for its own text before those of the source. -/
theorem Cuts.step {place : Nat} {front rest : List WideChar} {head tail : List WideChar}
    (piece : List WideChar) (points : List WideChar) (entries : List Nat)
    (h : Cuts (place + piece.length) front rest head tail) (hlength : entries.length = points.length)
    (htable : offsetsFrom place true 0 (piece ++ (front ++ rest)) =
      entries ++ offsetsFrom (place + piece.length) true 0 (front ++ rest))
    (hpiece : ∀ {source : List WideChar} {text : List WideChar}, Spelled source text →
      Spelled (piece ++ source) (points ++ text)) :
    Cuts place (piece ++ front) rest (points ++ head) tail := by
  have hdrop : ∀ n, (entries ++ offsetsFrom (place + piece.length) true 0 (front ++ rest)).drop
      (points.length + n) = (offsetsFrom (place + piece.length) true 0 (front ++ rest)).drop n := by
    intro n
    rw [← hlength, List.drop_append, List.drop_eq_nil_of_le (Nat.le_add_right _ _),
      Nat.add_sub_cancel_left, List.nil_append]
  constructor
  · rw [List.append_assoc, htable, List.length_append, List.length_append, ← hlength,
      List.getElem?_append_right (Nat.le_add_right _ _), Nat.add_sub_cancel_left, h.entry,
      Nat.add_assoc]
  · exact hpiece h.spelled
  · rw [List.append_assoc, htable, List.length_append, List.length_append, Nat.add_assoc points.length,
      hdrop, hdrop, ← Nat.add_assoc]
    exact h.spells

/-- **The table cuts a source into parts that spell the parts of its text**, unless it cuts a pair of
backslashes in two. -/
theorem Spelled.split {source : List WideChar} {text head tail : List WideChar} (h : Spelled source text)
    (htext : text = head ++ tail) (place : Nat) :
    ∃ front rest, source = front ++ rest ∧ Cuts place front rest head tail := by
  induction h generalizing head place with
  | nil =>
    obtain ⟨rfl, rfl⟩ := List.append_eq_nil_iff.1 htext.symm
    exact ⟨[], [], rfl, cuts_start .nil place⟩
  | @plain c source text hc h ih =>
    cases head with
    | nil =>
      cases htext
      exact ⟨[], _, rfl, cuts_start (.plain hc h) place⟩
    | cons point head =>
      obtain ⟨rfl, htail⟩ := List.cons.inj htext
      obtain ⟨front, rest, rfl, hcuts⟩ := ih htail (place + 1)
      exact ⟨c :: front, rest, rfl, hcuts.step [c] [c] [place] rfl
        (offsetsFrom_plain place _ hc) (.plain hc)⟩
  | lone =>
    cases head with
    | nil =>
      cases htext
      exact ⟨[], _, rfl, cuts_start .lone place⟩
    | cons point head =>
      obtain ⟨rfl, htail⟩ := List.cons.inj htext
      obtain ⟨rfl, rfl⟩ := List.append_eq_nil_iff.1 htail.symm
      exact ⟨[char '\\'], [], rfl, rfl, .lone, .inl ⟨.nil, rfl⟩⟩
  | @pair c source text hc h ih =>
    cases head with
    | nil =>
      cases htext
      exact ⟨[], _, rfl, cuts_start (.pair hc h) place⟩
    | cons point head =>
      obtain ⟨rfl, htail⟩ := List.cons.inj htext
      cases head with
      | nil =>
        -- The cut goes through the pair; only a backslash behind it makes a difference.
        cases htail
        refine ⟨[char '\\'], c :: source, rfl, ?_, .lone, ?_⟩
        · exact congrArg (·[1]?) (offsetsFrom_pair place source hc)
        · show Spells (place + 1) _ _ ((offsetsFrom place true 0 (char '\\' :: c :: source)).drop 1) ∨ _
          rw [List.singleton_append, offsetsFrom_pair place source hc]
          by_cases hback : c = char '\\'
          · subst hback
            exact .inr ⟨source, text, rfl, rfl, h, rfl⟩
          · exact .inl ⟨.plain hback h, (offsetsFrom_plain (place + 1) source hback).symm⟩
      | cons point' head =>
        obtain ⟨rfl, hrest⟩ := List.cons.inj htail
        obtain ⟨front, rest, rfl, hcuts⟩ := ih hrest (place + 2)
        exact ⟨char '\\' :: c :: front, rest, rfl, hcuts.step [char '\\', c] [char '\\', c]
          [place, place + 1] rfl (offsetsFrom_pair place _ hc) (.pair hc)⟩
  | @escape n digits source point text hlen hhex hpoint h ih =>
    cases head with
    | nil =>
      cases htext
      exact ⟨[], _, rfl, cuts_start (.escape hlen hhex hpoint h) place⟩
    | cons point' head =>
      obtain ⟨rfl, htail⟩ := List.cons.inj htext
      obtain ⟨front, rest, rfl, hcuts⟩ := ih htail (place + n + 6)
      have hassoc : ∀ source : List WideChar,
          char '\\' :: (List.replicate (n + 1) (char 'u') ++ (digits ++ source)) =
            (char '\\' :: (List.replicate (n + 1) (char 'u') ++ digits)) ++ source := by
        intro source
        rw [List.cons_append, List.append_assoc]
      have hplace : place + (char '\\' :: (List.replicate (n + 1) (char 'u') ++ digits)).length =
          place + n + 6 := by
        rw [List.length_cons, List.length_append, List.length_replicate, hlen]
        omega
      rw [← hplace] at hcuts
      refine ⟨_, rest, by rw [hassoc, List.append_assoc], hcuts.step _ [point] [place] rfl ?_ ?_⟩
      · rw [← hassoc, offsetsFrom_digits place n _ hlen hhex, hplace]
        rfl
      · intro source text h
        rw [← hassoc]
        exact .escape hlen hhex hpoint h

/-! ### Slices -/

theorem le_of_mem_offsetsFrom {place skip o : Nat} {even : Bool} {text : List WideChar}
    (h : o ∈ offsetsFrom place even skip text) : place ≤ o := by
  induction text generalizing place even skip with
  | nil => exact Nat.le_of_eq (List.mem_singleton.1 h).symm
  | cons c rest ih =>
    have hlater : ∀ {even : Bool} {skip : Nat}, o ∈ offsetsFrom (place + 1) even skip rest →
        place ≤ o := fun h => Nat.le_of_succ_le (ih h)
    rw [offsetsFrom] at h
    split at h
    · split at h
      · exact (List.mem_cons.1 h).elim (fun h => Nat.le_of_eq h.symm) hlater
      · exact (List.mem_cons.1 h).elim (fun h => Nat.le_of_eq h.symm) hlater
    · exact hlater h

/-- **The entries of a table ascend.** -/
theorem pairwise_offsetsFrom (place : Nat) (even : Bool) (skip : Nat) (text : List WideChar) :
    (offsetsFrom place even skip text).Pairwise (· < ·) := by
  induction text generalizing place even skip with
  | nil => exact List.pairwise_singleton _ _
  | cons c rest ih =>
    rw [offsetsFrom]
    split
    · split
      · exact .cons (fun _ h => le_of_mem_offsetsFrom h) (ih _ _ _)
      · exact .cons (fun _ h => le_of_mem_offsetsFrom h) (ih _ _ _)
    · exact ih _ _ _

/-- What is cut out of a source spells a text, or begins in the middle of a pair of backslashes and
spells what follows. -/
def Halved (written : List WideChar) (text : List WideChar) : Prop :=
  ∃ written' text', written = char '\\' :: written' ∧ text = char '\\' :: text' ∧ Spelled written' text'

/-- What the table cuts out of a source behind a place. -/
theorem Spelled.slice_of_le {source : List WideChar} {text : List WideChar} (h : Spelled source text)
    {lo n : Nat} (hhi : lo + n ≤ text.length) :
    ∃ a m, (offsetsFrom 0 true 0 source)[lo]? = some a ∧
      (offsetsFrom 0 true 0 source)[lo + n]? = some (a + m) ∧
      (Spelled ((source.drop a).take m) ((text.drop lo).take n) ∨
        text[lo]? = some (char '\\') ∧
          Halved ((source.drop a).take m) ((text.drop lo).take n)) := by
  obtain ⟨front, rest, rfl, hcuts⟩ := h.split (List.take_append_drop lo text).symm 0
  have hlo : (text.take lo).length = lo := List.length_take_of_le (by omega)
  have hentry := hcuts.entry
  have hspells := hcuts.spells
  simp only [hlo, Nat.zero_add] at hentry hspells
  have hdrop : ∀ {k p : Nat}, ((offsetsFrom 0 true 0 (front ++ rest)).drop lo)[k]? = some p →
      (offsetsFrom 0 true 0 (front ++ rest))[lo + k]? = some p := fun h => by
    rwa [List.getElem?_drop] at h
  rcases hspells with ⟨hspelled, htable⟩ | ⟨rest', tail', rfl, htail, hspelled, htable⟩
  · obtain ⟨front', rest', rfl, hcuts'⟩ :=
      hspelled.split (List.take_append_drop n (text.drop lo)).symm front.length
    have hn : ((text.drop lo).take n).length = n :=
      List.length_take_of_le (by rw [List.length_drop]; omega)
    have hentry' := hcuts'.entry
    rw [hn, ← htable] at hentry'
    refine ⟨front.length, front'.length, hentry, hdrop hentry', .inl ?_⟩
    rw [List.drop_left, List.take_left]
    exact hcuts'.spelled
  · have hback : text[lo]? = some (char '\\') := by
      rw [← Nat.add_zero lo, ← List.getElem?_drop, htail]
      rfl
    cases n with
    | zero => exact ⟨front.length, 0, hentry, hentry, .inl .nil⟩
    | succ n =>
      obtain ⟨front', rest'', rfl, hcuts'⟩ :=
        hspelled.split (List.take_append_drop n tail').symm (front.length + 1)
      have hn : (tail'.take n).length = n := by
        have := congrArg List.length htail
        rw [List.length_drop, List.length_cons] at this
        exact List.length_take_of_le (by omega)
      have hentry' := hcuts'.entry
      rw [hn, ← htable, List.getElem?_drop] at hentry'
      refine ⟨front.length, front'.length + 1, hentry, ?_, .inr ⟨hback, front', tail'.take n, ?_, ?_, ?_⟩⟩
      · rw [show lo + (n + 1) = lo + 1 + n by omega, hentry']
        exact congrArg some (by omega)
      · rw [List.drop_left, List.take_succ_cons, List.take_left]
      · rw [htail, List.take_succ_cons]
      · exact hcuts'.spelled

/-- **What the table cuts out of a source between two places spells the text between them**, unless it
begins in the middle of a pair of backslashes. -/
theorem Spelled.slice {source : List WideChar} {text : List WideChar} (h : Spelled source text)
    {lo hi : Nat} (hlo : lo ≤ text.length) (hhi : hi ≤ text.length) :
    ∃ a b, (offsetsFrom 0 true 0 source)[lo]? = some a ∧
      (offsetsFrom 0 true 0 source)[hi]? = some b ∧
      (Spelled ((source.drop a).take (b - a)) ((text.drop lo).take (hi - lo)) ∨
        text[lo]? = some (char '\\') ∧
          Halved ((source.drop a).take (b - a)) ((text.drop lo).take (hi - lo))) := by
  rcases Nat.le_total lo hi with hle | hle
  · obtain ⟨n, rfl⟩ := Nat.exists_eq_add_of_le hle
    obtain ⟨a, m, ha, hb, hspelled⟩ := h.slice_of_le hhi
    refine ⟨a, a + m, ha, hb, ?_⟩
    rwa [Nat.add_sub_cancel_left, Nat.add_sub_cancel_left]
  · -- Entries ascend, so nothing is cut out on either side.
    obtain ⟨a, -, ha, -, -⟩ := h.slice_of_le (show lo + 0 ≤ text.length from hlo)
    obtain ⟨b, -, hb, -, -⟩ := h.slice_of_le (show hi + 0 ≤ text.length from hhi)
    refine ⟨a, b, ha, hb, .inl ?_⟩
    have hba : b ≤ a := by
      obtain ⟨hlo', rfl⟩ := List.getElem?_eq_some_iff.1 ha
      obtain ⟨hhi', rfl⟩ := List.getElem?_eq_some_iff.1 hb
      rcases Nat.eq_or_lt_of_le hle with rfl | hlt
      · exact le_rfl
      · exact Nat.le_of_lt (List.pairwise_iff_getElem.1 (pairwise_offsetsFrom 0 true 0 source) _ _ hhi'
          hlo' hlt)
    rw [Nat.sub_eq_zero_of_le hba, Nat.sub_eq_zero_of_le hle]
    exact .nil

/-! ### Sources without escapes -/

theorem mentionsEscape_iff {source : List WideChar} :
    mentionsEscape source = true ↔ [char '\\', char 'u'] <:+: source := by
  induction source with
  | nil => exact iff_of_false nofun fun h => nomatch List.infix_nil.1 h
  | cons c rest ih =>
    rw [mentionsEscape, Bool.or_eq_true, Bool.and_eq_true, decide_eq_true_eq, decide_eq_true_eq, ih,
      List.infix_cons_iff]
    refine or_congr_left ⟨?_, ?_⟩
    · rintro ⟨rfl, hu⟩
      obtain ⟨tail, rfl⟩ := List.head?_eq_some_iff.1 hu
      exact ⟨tail, rfl⟩
    · rintro ⟨tail, htail⟩
      cases htail
      exact ⟨rfl, rfl⟩

/-- **A source without escapes spells itself.** -/
theorem spelled_self {source : List WideChar} (h : mentionsEscape source = false) :
    Spelled source source := by
  induction source using scan_induction with
  | nil => exact .nil
  | plain c rest hc ih =>
    rw [mentionsEscape, Bool.or_eq_false_iff] at h
    exact .plain hc (ih h.2)
  | lone => exact .lone
  | pair c rest hc ih =>
    rw [mentionsEscape, mentionsEscape, Bool.or_eq_false_iff, Bool.or_eq_false_iff] at h
    exact .pair hc (ih h.2.2)
  | cut n => exact absurd h (by rw [List.replicate_succ, mentionsEscape]; simp)
  | escape n c rest hc ih => exact absurd h (by rw [List.replicate_succ, mentionsEscape]; simp)

end SourceDoc.Escape
