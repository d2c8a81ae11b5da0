/-!
# Wide strings

A surrogate is one half of a pair that writes a character, and no character itself.  A Java source may
still write one by its number, and comments, literals and messages may then contain it.  A wide string
is a sequence of code points: of characters, and of surrogates among them.

What a wide string loses as a string is told by `WideString.isEncodable`: nothing, if it has no
surrogates.
-/

namespace SourceDoc

/-! ### Code points -/

/-- A code point: a character, or one of the surrogates. -/
inductive WideChar where
  | char (c : Char)
  | surrogate (index : Fin 2048)
  deriving DecidableEq, Repr

namespace WideChar

instance : Coe Char WideChar := ⟨.char⟩

/-- The number of a code point. -/
def toNat : WideChar → Nat
  | .char c => c.toNat
  | .surrogate index => 0xd800 + index

/-- The code point with a number. -/
def ofNat (n : Nat) : WideChar :=
  if h : 0xd800 ≤ n ∧ n < 0xe000 then .surrogate ⟨n - 0xd800, by omega⟩ else .char (Char.ofNat n)

/-- The character of a code point; U+FFFD stands for a surrogate. -/
def toChar : WideChar → Char
  | .char c => c
  | .surrogate _ => Char.ofNat 0xfffd

/-- Whether a code point is a character that passes a test. -/
def satisfies (test : Char → Bool) : WideChar → Bool
  | .char c => test c
  | .surrogate _ => false

/-- The characters of a text that has no surrogates. -/
def chars? : List WideChar → Option (List Char)
  | [] => some []
  | .char c :: rest => (chars? rest).map (c :: ·)
  | .surrogate _ :: _ => none

instance : LT WideChar := ⟨fun a b => a.toNat < b.toNat⟩

instance (a b : WideChar) : Decidable (a < b) := inferInstanceAs (Decidable (a.toNat < b.toNat))

/-- The characters of a text are those that write it. -/
theorem chars?_eq_some_iff {text : List WideChar} {chars : List Char} :
    chars? text = some chars ↔ text = chars.map .char := by
  induction text generalizing chars with
  | nil => cases chars <;> simp [chars?]
  | cons c rest ih =>
    cases c with
    | surrogate index => cases chars <;> simp [chars?]
    | char c =>
      cases chars with
      | nil => simp [chars?]
      | cons d chars =>
        simp only [chars?, Option.map_eq_some_iff, ih, List.cons.injEq, List.map_cons, char.injEq]
        constructor
        · rintro ⟨_, hrest, rfl, rfl⟩
          exact ⟨rfl, hrest⟩
        · rintro ⟨rfl, hrest⟩
          exact ⟨chars, hrest, rfl, rfl⟩

/-- Every number up to the last code point is the number of one. -/
theorem toNat_ofNat {n : Nat} (h : n < 0x110000) : (ofNat n).toNat = n := by
  rw [ofNat]
  split
  · simp only [toNat]
    omega
  · have valid : n.isValidChar := by
      rw [Nat.isValidChar]
      omega
    rw [toNat, Char.ofNat, dif_pos valid]
    rfl

end WideChar

/-! ### Strings -/

/-- A sequence of code points. -/
structure WideString where
  ofList ::
  /-- The code points. -/
  toList : List WideChar
  deriving DecidableEq, Repr

namespace WideString

/-- The code points of a string. -/
def ofString (s : String) : WideString := ⟨s.toList.map .char⟩

instance : Coe String WideString := ⟨ofString⟩

instance : Inhabited WideString := ⟨⟨[]⟩⟩

instance : Append WideString := ⟨fun a b => ⟨a.toList ++ b.toList⟩⟩

instance : LT WideString := ⟨fun a b => a.toList < b.toList⟩

instance (a b : WideString) : Decidable (a < b) := inferInstanceAs (Decidable (a.toList < b.toList))

/-- Whether there are no code points. -/
def isEmpty (s : WideString) : Bool := s.toList.isEmpty

/-- The number of code points. -/
def length (s : WideString) : Nat := s.toList.length

/-- The strings one after the other, with a separator between them. -/
def intercalate (separator : WideString) (parts : List WideString) : WideString :=
  ⟨List.intercalate separator.toList (parts.map toList)⟩

/-- The characters of a wide string; U+FFFD stands for a surrogate. -/
def toString (s : WideString) : String := String.ofList (s.toList.map WideChar.toChar)

/-- Whether a wide string can be written in an encoding, which has no bytes for surrogates. -/
def isEncodable (s : WideString) : Bool := s.toList.all (·.satisfies fun _ => true)

theorem ofString_append (a b : String) : ofString (a ++ b) = ofString a ++ ofString b := by
  have hchars : (a ++ b).toList.map WideChar.char = a.toList.map .char ++ b.toList.map .char := by simp
  exact congrArg ofList hchars

/-- A string is not changed by being taken for a wide one. -/
theorem toString_ofString (s : String) : (ofString s).toString = s := by
  simp [toString, ofString, WideChar.toChar, Function.comp_def]

end WideString

end SourceDoc
