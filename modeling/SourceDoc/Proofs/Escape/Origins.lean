import SourceDoc.Escape.Decode
import SourceDoc.Proofs.Except
import SourceDoc.Proofs.Escape.Scan

/-!
# Where decoded code points come from

`trace` decodes a source like `decode` and keeps, for each code point, the part of the source it was
read from (`map_point_trace`).  That part always writes the code point: it is the character itself,
or an escape that stands for it (`writes_of_traceFrom`).
-/

namespace SourceDoc.Escape

open WideChar (char)

open SourceDoc.Text

/-! ### The decoder with origins -/

/-- A decoded code point and the part of the source it was read from: the characters from `first` on,
before `stop`. -/
structure Origin where
  /-- The code point. -/
  point : WideChar
  /-- The place of the first character. -/
  first : Nat
  /-- The place behind the last character. -/
  stop : Nat
  deriving DecidableEq, Repr

/-- The origins of characters that stand for themselves, the first of them at `place`. -/
def Origin.literals (place : Nat) : List WideChar → List Origin
  | [] => []
  | c :: rest => ⟨c, place, place + 1⟩ :: literals (place + 1) rest

/-- Where the text begins that is still written at the end of a source. -/
def endingPlace (piece : List WideChar) (place : Nat) : Mode → Nat
  | .marker _ => place - piece.length
  | _ => place

/-- Decodes the rest of a source like `decodeFrom` and keeps the origins.  `place` is where the
character or escape begins that is being read. -/
def traceFrom (piece : List WideChar) (place : Nat) (mode : Mode) :
    List WideChar → Except Fault (List Origin)
  | [] => .ok (Origin.literals (endingPlace piece place mode) (ending piece mode))
  | c :: rest =>
    match mode with
    | .plain =>
      if c = char '\\' then traceFrom piece place .backslash rest
      else (traceFrom (c :: piece) (place + 1) .plain rest).map (⟨c, place, place + 1⟩ :: ·)
    | .backslash =>
      if c = char 'u' then traceFrom piece place (.marker 1) rest
      else (traceFrom (c :: char '\\' :: piece) (place + 2) .plain rest).map fun tail =>
        ⟨char '\\', place, place + 1⟩ :: ⟨c, place + 1, place + 2⟩ :: tail
    | .marker us =>
      if c = char 'u' then traceFrom piece place (.marker (us + 1)) rest
      else do
        let point ← pointOfDigits ((c :: rest).take 4)
        return ⟨point, place, place + 1 + us + ((c :: rest).take 4).length⟩ ::
          (← traceFrom [] (place + 1 + us + 1) (.digits 3) rest)
    | .digits left =>
      traceFrom [] (place + 1) (if left ≤ 1 then .plain else .digits (left - 1)) rest

/-- The code points of a source with their origins. -/
def trace (source : List WideChar) : Except Fault (List Origin) :=
  traceFrom [] 0 .plain source

theorem map_point_literals (place : Nat) (chars : List WideChar) :
    (Origin.literals place chars).map (·.point) = chars := by
  induction chars generalizing place with
  | nil => rfl
  | cons c rest ih => rw [Origin.literals, List.map_cons, ih]

/-- Without their origins, the code points are those that the decoder gives. -/
theorem map_point_traceFrom (piece : List WideChar) (place : Nat) (mode : Mode) (text : List WideChar) :
    (traceFrom piece place mode text).map (·.map (·.point)) = decodeFrom piece mode text := by
  induction text generalizing piece place mode with
  | nil => rw [traceFrom, decodeFrom, Except.map, map_point_literals]
  | cons c rest ih =>
    cases mode with
    | plain =>
      rw [traceFrom, decodeFrom]
      split
      · exact ih _ _ _
      · rw [← ih _ (place + 1)]
        cases traceFrom (c :: piece) (place + 1) .plain rest <;> rfl
    | backslash =>
      rw [traceFrom, decodeFrom]
      split
      · exact ih _ _ _
      · rw [← ih _ (place + 2)]
        cases traceFrom (c :: char '\\' :: piece) (place + 2) .plain rest <;> rfl
    | marker us =>
      rw [traceFrom, decodeFrom]
      split
      · exact ih _ _ _
      · rw [← ih _ (place + 1 + us + 1)]
        cases pointOfDigits ((c :: rest).take 4) with
        | error fault => rfl
        | ok point => cases traceFrom [] (place + 1 + us + 1) (.digits 3) rest <;> rfl
    | digits left =>
      rw [traceFrom, decodeFrom]
      exact ih _ _ _

theorem map_point_trace (source : List WideChar) :
    (trace source).map (·.map (·.point)) = decode source :=
  map_point_traceFrom [] 0 .plain source

/-! ### The ways a source begins -/

theorem traceFrom_plain (piece : List WideChar) (place : Nat) {c : WideChar} (rest : List WideChar)
    (hc : c ≠ char '\\') :
    traceFrom piece place .plain (c :: rest) =
      (traceFrom (c :: piece) (place + 1) .plain rest).map
        (⟨c, place, place + 1⟩ :: ·) := by
  rw [traceFrom, if_neg hc]

theorem traceFrom_lone (piece : List WideChar) (place : Nat) :
    traceFrom piece place .plain [char '\\'] = .ok [⟨char '\\', place, place + 1⟩] := rfl

theorem traceFrom_pair (piece : List WideChar) (place : Nat) {c : WideChar} (rest : List WideChar)
    (hc : c ≠ char 'u') :
    traceFrom piece place .plain (char '\\' :: c :: rest) =
      (traceFrom (c :: char '\\' :: piece) (place + 2) .plain rest).map fun tail =>
        ⟨char '\\', place, place + 1⟩ :: ⟨c, place + 1, place + 2⟩ :: tail := by
  rw [traceFrom, if_pos rfl, traceFrom, if_neg hc]

/-- Further `u`s only lengthen the marker of an escape. -/
theorem traceFrom_marker (piece : List WideChar) (place us n : Nat) (tail : List WideChar) :
    traceFrom piece place (.marker us) (List.replicate n (char 'u') ++ tail) =
      traceFrom piece place (.marker (us + n)) tail := by
  induction n generalizing us with
  | zero => rfl
  | succ n ih =>
    rw [List.replicate_succ, List.cons_append, traceFrom, if_pos rfl, ih, Nat.add_right_comm,
      Nat.add_assoc]

/-- Behind its first digit an escape takes what is left of it without looking. -/
theorem traceFrom_digits (place left : Nat) (hleft : 1 ≤ left) (rest : List WideChar) :
    traceFrom [] place (.digits left) rest =
      traceFrom [] (place + left) .plain (rest.drop left) := by
  induction rest generalizing place left with
  | nil =>
    rw [List.drop_nil]
    rfl
  | cons c rest ih =>
    obtain ⟨left, rfl⟩ : ∃ k, left = k + 1 := ⟨left - 1, by omega⟩
    rw [traceFrom, List.drop_succ_cons]
    by_cases h : left + 1 ≤ 1
    · rw [if_pos h, show left = 0 by omega, List.drop_zero]
    · rw [if_neg h, Nat.add_sub_cancel, ih _ left (by omega), Nat.add_assoc, Nat.add_comm 1 left]

theorem traceFrom_cut (piece : List WideChar) (place n : Nat) :
    traceFrom piece place .plain (char '\\' :: List.replicate (n + 1) (char 'u')) =
      .ok (Origin.literals (place - piece.length)
        (piece.reverse ++ char '\\' :: List.replicate (n + 1) (char 'u'))) := by
  have h := traceFrom_marker piece place 1 n []
  rw [List.append_nil] at h
  rw [traceFrom, if_pos rfl, List.replicate_succ, traceFrom, if_pos rfl, h, traceFrom, ending,
    endingPlace, Nat.add_comm 1 n, ← List.replicate_succ]

theorem traceFrom_escape (piece : List WideChar) (place n : Nat) {c : WideChar} (rest : List WideChar)
    (hc : c ≠ char 'u') :
    traceFrom piece place .plain (char '\\' :: (List.replicate (n + 1) (char 'u') ++ c :: rest)) = do
      let point ← pointOfDigits ((c :: rest).take 4)
      return ⟨point, place, place + n + 2 + ((c :: rest).take 4).length⟩ ::
        (← traceFrom [] (place + n + 6) .plain ((c :: rest).drop 4)) := by
  rw [traceFrom, if_pos rfl, List.replicate_succ, List.cons_append, traceFrom, if_pos rfl,
    traceFrom_marker, traceFrom, if_neg hc, traceFrom_digits _ 3 (by omega), List.drop_succ_cons,
    show place + 1 + (1 + n) = place + n + 2 by omega]

/-! ### What an origin writes -/

/-- A piece of the source writes a code point: it is the character itself, or an escape that stands
for it. -/
def Writes (text : List WideChar) (point : WideChar) : Prop :=
  text = [point] ∨
    ∃ n digits, text = char '\\' :: (List.replicate (n + 1) (char 'u') ++ digits) ∧
      pointOfDigits digits = .ok point

/-- The part of the source that a code point was read from. -/
def Origin.text (source : List WideChar) (origin : Origin) : List WideChar :=
  (source.drop origin.first).take (origin.stop - origin.first)

theorem writes_char {source rest : List WideChar} {c : WideChar} {place : Nat}
    (h : source.drop place = c :: rest) :
    Writes (Origin.text source ⟨c, place, place + 1⟩) c := by
  left
  rw [Origin.text, h, Nat.add_sub_cancel_left]
  rfl

theorem drop_succ_of_drop {source rest : List WideChar} {c : WideChar} {place : Nat}
    (h : source.drop place = c :: rest) : source.drop (place + 1) = rest := by
  rw [← List.drop_drop, h]
  rfl

/-- The rest of a source stands behind the text since the previous escape. -/
theorem drop_piece {source piece text : List WideChar} {place : Nat} (hpiece : piece.length ≤ place)
    (h : source.drop (place - piece.length) = piece.reverse ++ text) :
    source.drop place = text := by
  have hplace : place = place - piece.length + piece.reverse.length := by
    rw [List.length_reverse]
    omega
  rw [hplace, ← List.drop_drop, h, List.drop_left]

theorem writes_literals {source : List WideChar} :
    ∀ (chars rest : List WideChar) (place : Nat), source.drop place = chars ++ rest →
      ∀ o ∈ Origin.literals place chars, Writes (o.text source) o.point := by
  intro chars
  induction chars with
  | nil => intro rest place _ o ho; cases ho
  | cons c chars ih =>
    intro rest place h o ho
    rcases List.mem_cons.1 ho with rfl | ho
    · exact writes_char h
    · exact ih rest (place + 1) (drop_succ_of_drop h) o ho

/-- The part of the source that `traceFrom` gives for a code point writes it.  The text since the
previous escape stands just before the rest of the source. -/
theorem writes_of_traceFrom {source : List WideChar} (text : List WideChar) :
    ∀ (piece : List WideChar) (place : Nat) (origins : List Origin), piece.length ≤ place →
      source.drop (place - piece.length) = piece.reverse ++ text →
      traceFrom piece place .plain text = .ok origins →
      ∀ o ∈ origins, Writes (o.text source) o.point := by
  induction text using scan_induction with
  | nil =>
    intro piece place origins _ _ htrace o ho
    cases htrace
    cases ho
  | plain c rest hc ih =>
    intro piece place origins hpiece hsource htrace o ho
    rw [traceFrom_plain _ _ _ hc] at htrace
    obtain ⟨tail, htail, rfl⟩ := Except.map_eq_ok htrace
    have hplace := drop_piece hpiece hsource
    rcases List.mem_cons.1 ho with rfl | ho
    · exact writes_char hplace
    · refine ih (c :: piece) (place + 1) tail (by simpa using hpiece) ?_ htail o ho
      simpa using hsource
  | lone =>
    intro piece place origins hpiece hsource htrace o ho
    cases htrace
    obtain rfl := List.mem_singleton.1 ho
    exact writes_char (drop_piece hpiece hsource)
  | pair c rest hc ih =>
    intro piece place origins hpiece hsource htrace o ho
    rw [traceFrom_pair _ _ _ hc] at htrace
    obtain ⟨tail, htail, rfl⟩ := Except.map_eq_ok htrace
    have hplace := drop_piece hpiece hsource
    rcases List.mem_cons.1 ho with rfl | ho
    · exact writes_char hplace
    rcases List.mem_cons.1 ho with rfl | ho
    · exact writes_char (drop_succ_of_drop hplace)
    · refine ih (c :: char '\\' :: piece) (place + 2) tail (by simpa using hpiece) ?_ htail o ho
      simpa using hsource
  | cut n =>
    intro piece place origins hpiece hsource htrace o ho
    rw [traceFrom_cut] at htrace
    cases htrace
    exact writes_literals _ [] _ (by rw [hsource, List.append_nil]) o ho
  | escape n c rest hc ih =>
    intro piece place origins hpiece hsource htrace o ho
    rw [traceFrom_escape _ _ _ _ hc] at htrace
    obtain ⟨point, hpoint, htrace⟩ := Except.bind_eq_ok htrace
    obtain ⟨tail, htail, htrace⟩ := Except.bind_eq_ok htrace
    cases htrace
    have hplace := drop_piece hpiece hsource
    rcases List.mem_cons.1 ho with rfl | ho
    · right
      refine ⟨n, (c :: rest).take 4, ?_, hpoint⟩
      rw [Origin.text, hplace, show place + n + 2 + ((c :: rest).take 4).length - place =
        n + 1 + ((c :: rest).take 4).length + 1 by omega, List.take_succ_cons]
      rw [List.take_append, List.take_of_length_le (by simp), List.length_replicate,
        Nat.add_sub_cancel_left, List.length_take, ← List.take_take]
      simp
    · refine ih [] (place + n + 6) tail (by simp) ?_ htail o ho
      have hdrop : source.drop (place + (n + 6)) = (c :: rest).drop 4 := by
        rw [← List.drop_drop, hplace, List.drop_succ_cons, List.drop_append,
          List.drop_eq_nil_of_le (by simp), List.nil_append]
        simp
      simpa [Nat.add_assoc] using hdrop

end SourceDoc.Escape
