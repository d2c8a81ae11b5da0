import SourceDoc.Proofs.Escape.Regular

/-!
# When the table of offsets reaches the end of the decoded text

The table of offsets has an entry for every place of the decoded text, the end included, unless the
source ends inside an escape (`length_lt_of_offsets?`).  What is decoded as one code point is counted
as one character or more, so that the table may only be too long; where a source ends inside an escape,
text is written twice and counted once.
-/

namespace SourceDoc.Text

/-! ### Numbers have no backslashes -/

/-- What is not dropped remains. -/
theorem mem_dropWhile {α : Type} {p : α → Bool} {a : α} {l : List α} (ha : a ∈ l)
    (hp : p a = false) : a ∈ l.dropWhile p := by
  rw [← List.takeWhile_append_dropWhile (p := p) (l := l), List.mem_append] at ha
  refine ha.resolve_left fun hmem => ?_
  have hall := List.mem_takeWhile_imp hmem
  rw [hp] at hall
  cases hall

theorem digitsFrom?_backslash {base acc : Nat} {closed : Bool} {text : List Char}
    (h : '\\' ∈ text) : digitsFrom? base acc closed text = none := by
  have hdigit : digitIn? base '\\' = none := by
    rw [digitIn?]
    rfl
  induction text generalizing acc closed with
  | nil => cases h
  | cons c rest ih =>
    rw [digitsFrom?]
    by_cases hc : c = '\\'
    · rw [hc, if_neg (by decide), hdigit]
    · have hrest : '\\' ∈ rest := (List.mem_cons.1 h).resolve_left (Ne.symm hc)
      split
      · split
        · exact ih hrest
        · rfl
      · split
        · exact ih hrest
        · rfl

theorem magnitude?_backslash {base : Nat} {text : List Char} (h : '\\' ∈ text) :
    magnitude? base text = none := by
  have hmark : '\\' ∈ dropBaseMark text := by
    unfold dropBaseMark
    split
    · rename_i zero x rest
      split
      · -- Neither the mark nor the underscore behind it is a backslash.
        rename_i hbase
        rw [Bool.and_eq_true, decide_eq_true_eq, Bool.or_eq_true, decide_eq_true_eq,
          decide_eq_true_eq] at hbase
        have hzero : zero ≠ '\\' := by
          rintro rfl
          cases hbase.1
        have hx : x ≠ '\\' := by
          rintro rfl
          exact absurd hbase.2 (by decide)
        have hrest : '\\' ∈ rest := (List.mem_cons.1 ((List.mem_cons.1 h).resolve_left
          (Ne.symm hzero))).resolve_left (Ne.symm hx)
        split
        · exact (List.mem_cons.1 hrest).resolve_left (by decide)
        · exact hrest
      · exact h
    · exact h
  unfold magnitude?
  split
  · exact digitsFrom?_backslash hmark
  · exact digitsFrom?_backslash h

/-- **A text with a backslash writes no integer.** -/
theorem integer?_backslash {base : Nat} {text : List Char} (h : '\\' ∈ text) :
    integer? base text = none := by
  have hpad : isPadding '\\' = false := by decide
  have hmem : '\\' ∈ ((text.dropWhile isPadding).reverse.dropWhile isPadding).reverse :=
    List.mem_reverse.2 (mem_dropWhile (List.mem_reverse.2 (mem_dropWhile h hpad)) hpad)
  unfold integer?
  split
  · rename_i rest htext
    rw [htext] at hmem
    rw [magnitude?_backslash ((List.mem_cons.1 hmem).resolve_left (by decide))]
    rfl
  · rename_i rest htext
    rw [htext] at hmem
    rw [magnitude?_backslash ((List.mem_cons.1 hmem).resolve_left (by decide))]
    rfl
  · rw [magnitude?_backslash hmem]
    rfl

end SourceDoc.Text

namespace SourceDoc.Escape

open WideChar (char)

/-- The digits of an escape that is decoded have no backslash among them. -/
theorem notMem_of_pointOfDigits {digits : List WideChar} {point : WideChar}
    (h : pointOfDigits digits = .ok point) : char '\\' ∉ digits := by
  intro hmem
  rw [pointOfDigits] at h
  cases hchars : WideChar.chars? digits with
  | none =>
    rw [hchars] at h
    cases h
  | some chars =>
    rw [WideChar.chars?_eq_some_iff.1 hchars] at hmem
    have hnone : Text.integer? 16 chars = none := Text.integer?_backslash (by simpa using hmem)
    rw [hchars, Option.bind_some, hnone] at h
    cases h

/-! ### Lengths -/

theorem length_offsetsFrom_place (place place' : Nat) (even : Bool) (skip : Nat) (text : List WideChar) :
    (offsetsFrom place even skip text).length = (offsetsFrom place' even skip text).length := by
  induction text generalizing place place' even skip with
  | nil => rfl
  | cons c rest ih =>
    rw [offsetsFrom, offsetsFrom]
    split
    · split
      · rw [List.length_cons, List.length_cons, ih]
      · rw [List.length_cons, List.length_cons, ih]
    · exact ih _ _ _ _

/-- Characters that open nothing are counted one by one. -/
theorem length_offsetsFrom_append {front : List WideChar} (hfront : char '\\' ∉ front) (place : Nat)
    (rest : List WideChar) : (offsetsFrom place true 0 (front ++ rest)).length =
      front.length + (offsetsFrom place true 0 rest).length := by
  induction front generalizing place with
  | nil => rw [List.nil_append, List.length_nil, Nat.zero_add]
  | cons c front ih =>
    rw [List.mem_cons, not_or] at hfront
    rw [List.cons_append, offsetsFrom_plain _ _ (Ne.symm hfront.1), List.length_cons,
      ih hfront.2, length_offsetsFrom_place _ place, List.length_cons]
    omega

/-- A source ends behind the `u`s of an escape. -/
def EndsInEscape (source : List WideChar) : Prop :=
  ∃ n, char '\\' :: List.replicate (n + 1) (char 'u') <:+ source

theorem EndsInEscape.mono {source rest : List WideChar} (h : EndsInEscape rest) (hrest : rest <:+ source) :
    EndsInEscape source := by
  obtain ⟨n, hn⟩ := h
  exact ⟨n, hn.trans hrest⟩

/-- **The table has more entries than there are code points, unless the source ends inside an escape.**
The induction goes along the reading of the source; what an escape is decoded to is one code point, and
the table counts it once or character by character. -/
theorem length_lt_offsetsFrom (text : List WideChar) :
    ∀ (piece : List WideChar) (place : Nat) (origins : List Origin),
      traceFrom piece place .plain text = .ok origins →
      origins.length < (offsetsFrom place true 0 text).length ∨ EndsInEscape text := by
  induction text using scan_induction with
  | nil =>
    intro piece place origins htrace
    cases htrace
    exact .inl Nat.zero_lt_one
  | plain c rest hc ih =>
    intro piece place origins htrace
    rw [traceFrom_plain _ _ _ hc] at htrace
    obtain ⟨tail, htail, rfl⟩ := Except.map_eq_ok htrace
    rw [offsetsFrom_plain _ _ hc]
    exact (ih _ _ tail htail).imp Nat.succ_lt_succ (·.mono (List.suffix_cons _ _))
  | lone =>
    intro piece place origins htrace
    rw [traceFrom_lone] at htrace
    cases htrace
    rw [offsetsFrom_lone]
    exact .inl (Nat.lt_succ_self 1)
  | pair c rest hc ih =>
    intro piece place origins htrace
    rw [traceFrom_pair _ _ _ hc] at htrace
    obtain ⟨tail, htail, rfl⟩ := Except.map_eq_ok htrace
    rw [offsetsFrom_pair _ _ hc]
    refine (ih _ _ tail htail).imp (fun h => Nat.succ_lt_succ (Nat.succ_lt_succ h)) fun h => ?_
    exact h.mono ((List.suffix_cons _ _).trans (List.suffix_cons _ _))
  | cut n => exact fun _ _ _ _ => .inr ⟨n, List.suffix_rfl⟩
  | escape n c rest hc ih =>
    intro piece place origins htrace
    rw [traceFrom_escape _ _ _ _ hc] at htrace
    obtain ⟨point, hpoint, htrace⟩ := Except.bind_eq_ok htrace
    obtain ⟨tail, htail, htrace⟩ := Except.bind_eq_ok htrace
    cases htrace
    have hhead : (c :: rest).head? ≠ some (char 'u') := by simpa using hc
    have hsuffix : (c :: rest).drop 4 <:+ char '\\' :: (List.replicate (n + 1) (char 'u') ++ c :: rest) :=
      ((List.drop_suffix _ _).trans (List.suffix_append _ _)).trans (List.suffix_cons _ _)
    refine (ih _ _ tail htail).imp (fun hlt => ?_) (·.mono hsuffix)
    by_cases hwritten : ((c :: rest).take 4).length = 4 ∧ ((c :: rest).take 4).all isHexDigit
    · rw [offsetsFrom_written _ _ hhead hwritten.1 hwritten.2]
      exact Nat.succ_lt_succ hlt
    · have hplain : char '\\' ∉ List.replicate n (char 'u') ++ (c :: rest).take 4 := by
        rw [List.mem_append, List.mem_replicate, not_or]
        exact ⟨fun h => absurd h.2 (by decide), notMem_of_pointOfDigits hpoint⟩
      have hsplit : List.replicate n (char 'u') ++ c :: rest =
          (List.replicate n (char 'u') ++ (c :: rest).take 4) ++ (c :: rest).drop 4 := by
        rw [List.append_assoc, List.take_append_drop]
      rw [offsetsFrom_unwritten _ _ hhead hwritten, hsplit, List.length_cons, List.length_cons,
        List.length_cons, length_offsetsFrom_append hplain, length_offsetsFrom_place _ (place + n + 6)]
      omega

/-- The table of offsets reaches the end of the decoded text, unless the source ends inside an
escape. -/
theorem length_lt_of_offsets? {source : List WideChar} {data : List WideChar} {offsets : List Nat}
    (hdecoded : decode source = .ok data) (hoffsets : offsets? source = some offsets)
    (hends : ¬ EndsInEscape source) : data.length < offsets.length := by
  rw [← map_point_trace] at hdecoded
  obtain ⟨origins, htrace, rfl⟩ := Except.map_eq_ok hdecoded
  rw [offsets?_eq] at hoffsets
  split at hoffsets
  · obtain rfl := Option.some.inj hoffsets
    rw [List.length_map]
    exact (length_lt_offsetsFrom source [] 0 origins htrace).resolve_right hends
  · cases hoffsets

end SourceDoc.Escape
