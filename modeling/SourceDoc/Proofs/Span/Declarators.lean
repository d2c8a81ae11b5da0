import SourceDoc.Proofs.Span.Ends
import SourceDoc.Span.Initializers

/-!
# Where the variables of a field are found

The variables of a field are found by their names.  The name of the first variable is looked for
outside the angle brackets of type arguments.  The walk passes the type, unless the type is an array and
its name is that of the variable (`firstDeclarator_of_typeAt`).
-/

namespace SourceDoc

/-- The name of a segment without type arguments. -/
def Segment.plainName? : Segment → Option String
  | .mk name [] => some name
  | .mk _ (_ :: _) => none

/-- The last name of an array type, if it has no type arguments. -/
def TypeRef.arrayName? : TypeRef → Option String
  | .named segments (_ + 1) => segments.getLast?.bind Segment.plainName?
  | _ => none

end SourceDoc

namespace SourceDoc.TokenText

open SourceDoc.Grammar SourceDoc.Grammar.Parser SourceDoc.Token SourceDoc.Tree

variable {src : TokenText} {i j : Nat} {name : String}

/-! ### Texts -/

/-- The text of a token is told by its value, as long as no surrogate is involved. -/
theorem text_eq_ofString_iff {t : Token} {value : String}
    (hvalue : Char.ofNat 0xfffd ∉ value.toList) :
    t.text = .ofString value ↔ t.value = value := by
  constructor
  · intro h
    rw [Token.value, h, WideString.toString_ofString]
  · intro h
    have hchars : t.text.toList.map WideChar.toChar = value.toList := by
      rw [← h, Token.value, WideString.toString, String.toList_ofList]
    have hall : ∀ {cs : List WideChar} {s : List Char}, cs.map WideChar.toChar = s →
        Char.ofNat 0xfffd ∉ s → cs = s.map .char := by
      intro cs
      induction cs with
      | nil =>
        rintro _ rfl -
        rfl
      | cons c cs ih =>
        rintro _ rfl hnot
        rw [List.map_cons, List.mem_cons, not_or] at hnot
        rw [List.map_cons, List.map_cons, ← ih rfl hnot.2]
        cases c with
        | char c => rfl
        | surrogate s => exact absurd rfl hnot.1
    show t.text = WideString.ofList (value.toList.map .char)
    rw [← hall hchars hvalue]

theorem hasValue_iff {value : String} (hvalue : Char.ofNat 0xfffd ∉ value.toList) :
    src.hasValue i value = true ↔ Stands src.tokens i value := by
  rw [hasValue, text?_natCast, beq_iff_eq, Option.map_eq_some_iff]
  exact exists_congr fun t => and_congr_right fun _ => text_eq_ofString_iff hvalue

theorem hasValue_eq_false {value : String} {t : Token} (ht : src.tokens[i]? = some t)
    (hvalue : Char.ofNat 0xfffd ∉ value.toList) (hne : t.value ≠ value) :
    src.hasValue i value = false := by
  rw [← Bool.not_eq_true, hasValue_iff hvalue]
  rintro ⟨u, hu, rfl⟩
  exact hne (by rw [Option.some.inj (ht.symm.trans hu)])

/-- What may stand behind the name of a declared variable. -/
def declaratorMarks : List String := ["=", ",", ";", "["]

/-- **A variable is declared where its name stands and is followed by a mark.** -/
theorem declaratorAt_iff : src.declaratorAt i name = true ↔
    (∃ t, src.tokens[i]? = some t ∧ t.cls = .identifier ∧ t.value = name) ∧
      ∃ mark ∈ declaratorMarks, Stands src.tokens (i + 1) mark := by
  have hmarks : (["=", ",", ";", "["].any (src.hasValue (i + 1))) = true ↔
      ∃ mark ∈ declaratorMarks, Stands src.tokens (i + 1) mark := by
    rw [List.any_eq_true]
    refine exists_congr fun mark => and_congr_right fun hmem => ?_
    have hplain : ∀ mark ∈ declaratorMarks, Char.ofNat 0xfffd ∉ mark.toList := by decide
    rw [← Int.natCast_succ]
    exact hasValue_iff (hplain mark hmem)
  rw [declaratorAt, token?_natCast, Bool.and_eq_true, decide_eq_true_eq,
    and_iff_right (Int.natCast_nonneg i), Option.any_eq_true]
  constructor
  · rintro ⟨t, ht, htest⟩
    rw [Bool.and_eq_true, Bool.and_eq_true, beq_iff_eq, beq_iff_eq] at htest
    exact ⟨⟨t, ht, htest.1.1, htest.1.2⟩, hmarks.1 htest.2⟩
  · rintro ⟨⟨t, ht, hcls, hvalue⟩, hmark⟩
    refine ⟨t, ht, ?_⟩
    rw [Bool.and_eq_true, Bool.and_eq_true, beq_iff_eq, beq_iff_eq]
    exact ⟨⟨hcls, hvalue⟩, hmarks.2 hmark⟩

/-- Whether a text begins as words do. -/
def beginsWord (value : String) : Bool := value.toList.head?.any isIdentifierStart

section
variable (hproper : ∀ t ∈ src.tokens, Proper t)
include hproper

/-- A name begins as words do. -/
theorem value_ne_of_identifier {t : Token} {value : String} (ht : src.tokens[i]? = some t)
    (hcls : t.cls = .identifier) (hvalue : beginsWord value = false) : t.value ≠ value := by
  rintro rfl
  obtain ⟨ch, hhead, hstart⟩ :=
    (hproper t (Array.mem_of_getElem? ht)).start (by rw [hcls]; decide)
  rw [beginsWord, hhead] at hvalue
  exact Bool.false_ne_true (hvalue.symm.trans hstart)

/-- Nothing is declared where no name stands. -/
theorem declaratorAt_of_stands {value : String} (h : Stands src.tokens i value)
    (hvalue : beginsWord value = false) : src.declaratorAt i name = false := by
  rw [← Bool.not_eq_true, declaratorAt_iff]
  rintro ⟨⟨t, ht, hcls, -⟩, -⟩
  exact value_ne_of_identifier hproper ht hcls hvalue (Stands.unique ⟨t, ht, rfl⟩ h)

omit hproper in
/-- Nothing is declared before a token that is no mark. -/
theorem declaratorAt_before {value : String} (h : Stands src.tokens (i + 1) value)
    (hvalue : value ∉ declaratorMarks) : src.declaratorAt i name = false := by
  rw [← Bool.not_eq_true, declaratorAt_iff]
  rintro ⟨-, mark, hmem, hmark⟩
  exact hvalue (h.unique hmark ▸ hmem)

end

/-! ### The first name -/

/-- The walk to the first name passes from one place to another, and from one count of angle brackets
to another. -/
def Passes (src : TokenText) (name : String) (angle : Int) (i : Nat) (angle' : Int) (j : Nat) : Prop :=
  i ≤ j ∧ ∀ n, src.firstDeclaratorFrom name angle i (j - i + n) =
    src.firstDeclaratorFrom name angle' j n

theorem Passes.refl (angle : Int) (i : Nat) : Passes src name angle i angle i :=
  ⟨le_rfl, fun n => by rw [Nat.sub_self, Nat.zero_add]⟩

theorem Passes.trans {a₁ a₂ a₃ : Int} {k : Nat} (h₁ : Passes src name a₁ i a₂ j)
    (h₂ : Passes src name a₂ j a₃ k) : Passes src name a₁ i a₃ k := by
  refine ⟨h₁.1.trans h₂.1, fun n => ?_⟩
  have hle₁ := h₁.1
  have hle₂ := h₂.1
  rw [← h₂.2 n, ← h₁.2, show k - i + n = j - i + (k - j + n) by omega]

theorem passes_one {a₁ a₂ : Int} (h : ∀ n, src.firstDeclaratorFrom name a₁ i (n + 1) =
    src.firstDeclaratorFrom name a₂ (i + 1 : Nat) n) : Passes src name a₁ i a₂ (i + 1) :=
  ⟨Nat.le_succ i, fun n => by rw [← h n, show i + 1 - i + n = n + 1 by omega]⟩

theorem passes_open {angle : Int} (h : Stands src.tokens i "<") :
    Passes src name angle i (angle + 1) (i + 1) :=
  passes_one fun n => by
    rw [firstDeclaratorFrom, if_pos ((hasValue_iff (by decide)).2 h), Int.natCast_succ]

theorem passes_close {angle : Int} (h : Stands src.tokens i ">") :
    Passes src name (angle + 1) i angle (i + 1) := by
  refine passes_one fun n => ?_
  have hopen : src.hasValue i "<" = false := by
    obtain ⟨t, ht, hvalue⟩ := h
    exact hasValue_eq_false ht (by decide) (by rw [hvalue]; decide)
  rw [firstDeclaratorFrom, hopen, if_neg Bool.false_ne_true, if_pos ((hasValue_iff (by decide)).2 h),
    Int.natCast_succ, Int.add_sub_cancel]

/-- A token that is no angle bracket is passed, if no variable of the name is declared there or angle
brackets are open. -/
theorem passes_other {angle : Int} {t : Token} (ht : src.tokens[i]? = some t)
    (hopen : t.value ≠ "<") (hclose : t.value ≠ ">")
    (h : angle = 0 → src.declaratorAt i name = false) : Passes src name angle i angle (i + 1) := by
  refine passes_one fun n => ?_
  rw [firstDeclaratorFrom, hasValue_eq_false ht (by decide) hopen, if_neg Bool.false_ne_true,
    hasValue_eq_false ht (by decide) hclose, if_neg Bool.false_ne_true, if_neg, Int.natCast_succ]
  rw [Bool.and_eq_true, decide_eq_true_eq]
  rintro ⟨hzero, hat⟩
  rw [h hzero] at hat
  cases hat

theorem firstDeclaratorFrom_stop {n : Nat} {t : Token} (ht : src.tokens[i]? = some t)
    (hopen : t.value ≠ "<") (hclose : t.value ≠ ">") (h : src.declaratorAt i name = true) :
    src.firstDeclaratorFrom name 0 i (n + 1) = some (i : Int) := by
  rw [firstDeclaratorFrom, hasValue_eq_false ht (by decide) hopen, if_neg Bool.false_ne_true,
    hasValue_eq_false ht (by decide) hclose, if_neg Bool.false_ne_true, if_pos]
  rw [h]
  rfl

/-- **Within angle brackets the walk passes everything.** -/
theorem passes_of_nested (h : Nested src.tokens i j) {angle : Int} (hangle : 0 < angle) :
    Passes src name angle i angle j := by
  have hother : ∀ {i : Nat} {value : String} {angle : Int}, 0 < angle →
      Stands src.tokens i value → value ≠ "<" → value ≠ ">" →
      Passes src name angle i angle (i + 1) := by
    rintro i _ angle hangle ⟨t, ht, rfl⟩ hopen hclose
    exact passes_other ht hopen hclose fun h => by omega
  induction h generalizing angle with
  | nil i => exact .refl _ i
  | @word i j t ht hvalue _ ih =>
    refine Passes.trans (hother hangle ⟨t, ht, rfl⟩ ?_ ?_) (ih hangle)
    · exact fun h => hvalue (h ▸ List.mem_cons_self)
    · exact fun h => hvalue (h ▸ List.mem_cons_of_mem _ List.mem_cons_self)
  | square hopen hclose _ ih =>
    exact ((hother hangle hopen (by decide) (by decide)).trans
      (hother hangle hclose (by decide) (by decide))).trans (ih hangle)
  | angle hopen _ hclose _ ihwithin ih =>
    exact (((passes_open hopen).trans (ihwithin (by omega))).trans (passes_close hclose)).trans
      (ih hangle)

section
variable (hproper : ∀ t ∈ src.tokens, Proper t)
include hproper

/-- A token that begins no word is passed. -/
theorem passes_stands {value : String} (h : Stands src.tokens i value)
    (hvalue : beginsWord value = false) (hopen : value ≠ "<") (hclose : value ≠ ">") :
    Passes src name 0 i 0 (i + 1) := by
  have hat : src.declaratorAt i name = false := declaratorAt_of_stands hproper h hvalue
  obtain ⟨t, ht, rfl⟩ := h
  exact passes_other ht hopen hclose fun _ => hat

/-- A name is passed, if no variable of the name sought is declared there. -/
theorem passes_identifier {t : Token} (ht : src.tokens[i]? = some t) (hcls : t.cls = .identifier)
    (h : src.declaratorAt i name = false) : Passes src name 0 i 0 (i + 1) :=
  passes_other ht (value_ne_of_identifier hproper ht hcls (by decide))
    (value_ne_of_identifier hproper ht hcls (by decide)) fun _ => h

/-- The name of a basic type is passed. -/
theorem passes_basic {t : Token} (ht : src.tokens[i]? = some t) (hcls : t.cls = .basicType) :
    Passes src name 0 i 0 (i + 1) := by
  have hnot := value_notMem_notWords hproper ht (by rw [hcls]; decide)
  refine passes_other ht ?_ ?_ fun _ => ?_
  · exact fun h => hnot (h ▸ List.mem_cons_self)
  · exact fun h => hnot (h ▸ List.mem_cons_of_mem _ List.mem_cons_self)
  · rw [← Bool.not_eq_true, declaratorAt_iff]
    rintro ⟨⟨u, hu, hword, -⟩, -⟩
    rw [Option.some.inj (hu.symm.trans ht), hcls] at hword
    cases hword

theorem passes_of_pairs {n : Nat} (h : Pairs src.tokens i n) :
    Passes src name 0 i 0 (i + 2 * n) := by
  induction n generalizing i with
  | zero => exact .refl _ i
  | succ n ih =>
    obtain ⟨hopen, hclose, hrest⟩ := h
    rw [show i + 2 * (n + 1) = i + 1 + 1 + 2 * n by omega]
    exact ((passes_stands hproper hopen (by decide) (by decide) (by decide)).trans
      (passes_stands hproper hclose (by decide) (by decide) (by decide))).trans (ih hrest)

/-- A name with its type arguments is passed, if nothing is declared at the name. -/
theorem passes_of_segmentAt {s : Segment} (h : SegmentAt src.tokens i s j)
    (hplain : j = i + 1 → src.declaratorAt i name = false) : Passes src name 0 i 0 j := by
  cases h with
  | plain ht hcls => exact passes_identifier hproper ht hcls (hplain rfl)
  | generic ht hcls _ hopen hwithin hclose =>
    have hat : src.declaratorAt i name = false := declaratorAt_before hopen (by decide)
    exact (((passes_identifier hproper ht hcls hat).trans (passes_open hopen)).trans
      (passes_of_nested hwithin (by decide))).trans (passes_close hclose)

/-- A chain of names is passed up to its last name. -/
theorem passes_of_referenceAt (name : String) {segments : List Segment}
    (h : ReferenceAt src.tokens i segments j) :
    ∃ k s, segments.getLast? = some s ∧ SegmentAt src.tokens k s j ∧ Passes src name 0 i 0 k := by
  induction h with
  | @last i j s h => exact ⟨i, s, rfl, h, .refl _ i⟩
  | @dot i j k s rest h hdot hrest ih =>
    obtain ⟨m, s', hlast, hs, hpasses⟩ := ih
    refine ⟨m, s', ?_, hs, ?_⟩
    · rw [List.getLast?_cons, hlast]
      rfl
    · have hat : k = i + 1 → src.declaratorAt i name = false := by
        rintro rfl
        exact declaratorAt_before hdot (by decide)
      exact ((passes_of_segmentAt hproper h hat).trans
        (passes_stands hproper hdot (by decide) (by decide) (by decide))).trans hpasses

/-- A walk that has passed to a place where the name is declared stops there. -/
theorem firstDeclarator_of_passes {t : Token} {stop : Int} (h : Passes src name 0 i 0 j)
    (ht : src.tokens[j]? = some t) (hcls : t.cls = .identifier)
    (hat : src.declaratorAt j name = true) (hstop : j < stop) :
    src.firstDeclarator i stop name = some (j : Int) := by
  have hlo := h.1
  rw [firstDeclarator,
    show (stop - (i : Int)).toNat = j - i + ((stop - (j : Int)).toNat - 1 + 1) by omega, h.2]
  exact firstDeclaratorFrom_stop ht (value_ne_of_identifier hproper ht hcls (by decide))
    (value_ne_of_identifier hproper ht hcls (by decide)) hat

/-- **The first variable is found by its name, unless its type is an array of that name; then the name
of the type is taken for it.** -/
theorem firstDeclarator_of_typeAt {type : TypeRef} {t : Token} {stop : Int}
    (htype : TypeAt src.tokens i type j) (ht : src.tokens[j]? = some t)
    (hcls : t.cls = .identifier) (hat : src.declaratorAt j t.value = true) (hstop : j < stop) :
    (type.arrayName? ≠ some t.value ∧ src.firstDeclarator i stop t.value = some (j : Int)) ∨
      (type.arrayName? = some t.value ∧ ∃ k n : Nat, Pairs src.tokens (k + 1) n ∧
        j = k + 1 + 2 * n ∧ src.firstDeclarator i stop t.value = some (k : Int)) := by
  cases type with
  | basic typeName n =>
    obtain ⟨u, hu, hbasic, hpairs, rfl⟩ := htype
    exact .inl ⟨nofun, firstDeclarator_of_passes hproper
      ((passes_basic hproper hu hbasic).trans (passes_of_pairs hproper hpairs)) ht hcls hat hstop⟩
  | named segments n =>
    obtain ⟨e, href, hpairs, rfl⟩ := htype
    obtain ⟨k, s, hlast, hs, hpasses⟩ := passes_of_referenceAt hproper t.value href
    -- The walk reaches the variable, if it passes the last name of the type.
    have hreach : (e = k + 1 → src.declaratorAt k t.value = false) →
        src.firstDeclarator i stop t.value = some ((e + 2 * n : Nat) : Int) := fun hplain =>
      firstDeclarator_of_passes hproper ((hpasses.trans (passes_of_segmentAt hproper hs hplain)).trans
        (passes_of_pairs hproper hpairs)) ht hcls hat hstop
    cases n with
    | zero =>
      refine .inl ⟨nofun, hreach ?_⟩
      rintro rfl
      refine declaratorAt_before ⟨t, ht, rfl⟩ fun hmem => ?_
      have hmarks : ∀ v ∈ declaratorMarks, beginsWord v = false := by decide
      exact value_ne_of_identifier hproper ht hcls (hmarks _ hmem) rfl
    | succ n =>
      have harray : (TypeRef.named segments (n + 1)).arrayName? = s.plainName? := by
        rw [TypeRef.arrayName?, hlast]
        rfl
      rw [harray]
      cases hs with
      | generic hu hcls' hargs hopen hwithin hclose =>
        -- Type arguments stand between the name and the dimensions.
        refine .inl ⟨?_, hreach fun he => ?_⟩
        · cases ‹List TypeArgument› with
          | nil => exact absurd rfl hargs
          | cons arg args => nofun
        · have := (hwithin.rises .braces).le
          omega
      | @plain u hu hcls' =>
        -- The name is followed by a square bracket, as that of a variable may be.
        by_cases hname : u.value = t.value
        · refine .inr ⟨congrArg some hname, k, n + 1, hpairs, rfl, ?_⟩
          exact firstDeclarator_of_passes hproper hpasses hu hcls'
            (declaratorAt_iff.2 ⟨⟨u, hu, hcls', hname⟩, "[", by decide, hpairs.1⟩) (by omega)
        · refine .inl ⟨fun h => hname (Option.some.inj h), hreach fun _ => ?_⟩
          rw [← Bool.not_eq_true, declaratorAt_iff]
          rintro ⟨⟨v, hv, -, hvalue⟩, -⟩
          exact hname (by rw [← hvalue, Option.some.inj (hv.symm.trans hu)])

end

end SourceDoc.TokenText
