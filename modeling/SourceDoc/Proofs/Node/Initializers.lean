import SourceDoc.Proofs.Node.Ranges
import SourceDoc.Proofs.Span.Boundaries

/-!
# The tokens that initial values are cut from

The texts of the initial values of a field are cut from ranges of tokens that are found anew, by the
names of the variables (`initializerRanges`), and not taken from the tree.  They are the ranges that the
values were read from, just if the first variable is not taken for the type and each value is delimited
(`initializerRanges_eq_extents_iff`): its brackets are closed, and it has no comma that looks like the
one before the next variable.
-/

namespace SourceDoc.Tree

/-- The first and the last token that the initial value of a variable was read from. -/
def Declarator.range (d : Declarator) : Option (Int × Int) :=
  d.initializer.map fun x => ((x.first : Int), (x.stop : Int) - 1)

end SourceDoc.Tree

namespace SourceDoc.TokenText

open SourceDoc.Grammar SourceDoc.Grammar.Parser SourceDoc.Token SourceDoc.Tree

variable {α : Type} {src : TokenText} {i j k last : Nat}

/-! ### Ranges -/

/-- Reads values at some ranges of tokens. -/
def readRanges (read : Int → Int → Except SpanFault α) (ranges : List (Option (Int × Int))) :
    Except SpanFault (List (Option α)) :=
  ranges.mapM fun range => range.mapM fun range => read range.1 range.2

/-- The first and the last token of each initial value, for the variables from a place on. -/
def initializerRangesFrom (src : TokenText) (stop i : Int) (names : List String) :
    Except SpanFault (List (Option (Int × Int))) :=
  src.readInitializersFrom (fun first last => .ok (first, last)) stop i names

/-- The first and the last token of each initial value of a field declaration. -/
def initializerRanges (src : TokenText) (position : Option Position)
    (declared : List (String × Bool)) : Except SpanFault (List (Option (Int × Int))) :=
  src.readInitializers (fun first last => .ok (first, last)) position declared

/-- The first and the last token of the value that may begin behind the dimensions of a variable, and
where that variable ends. -/
def part (src : TokenText) (stop j : Int) (next : Option String) : Option (Int × Int) × Int :=
  if src.hasValue j "=" then
    (some (j + 1, src.declaratorBoundary (j + 1) stop next - 1),
      src.declaratorBoundary (j + 1) stop next)
  else (none, src.declaratorBoundary j stop next)

/-- **The value of a variable is read from its part, and the next variable follows.** -/
theorem readInitializersFrom_cons {read : Int → Int → Except SpanFault α} {stop i j : Int}
    {name : String} {others : List String} (hj : src.behindBrackets src.size (i + 1) = .ok j) :
    src.readInitializersFrom read stop i (name :: others) =
      (src.part stop j others.head?).1.mapM (fun range => read range.1 range.2) >>= fun value =>
        if stop ≤ (src.part stop j others.head?).2 then .ok (value :: others.map fun _ => none)
        else src.readInitializersFrom read stop ((src.part stop j others.head?).2 + 1) others >>=
          fun values => .ok (value :: values) := by
  rw [readInitializersFrom, hj, part]
  show (if src.hasValue j "=" = true then _ else _) = _
  cases src.hasValue j "=" with
  | true => rfl
  | false => rfl

theorem readInitializersFrom_error {read : Int → Int → Except SpanFault α} {stop i : Int}
    {name : String} {others : List String} {fault : SpanFault}
    (h : src.behindBrackets src.size (i + 1) = .error fault) :
    src.readInitializersFrom read stop i (name :: others) = .error fault := by
  rw [readInitializersFrom, h]
  rfl

theorem initializerRangesFrom_cons {stop i j : Int} {name : String} {others : List String}
    (hj : src.behindBrackets src.size (i + 1) = .ok j) :
    src.initializerRangesFrom stop i (name :: others) =
      if stop ≤ (src.part stop j others.head?).2 then
        .ok ((src.part stop j others.head?).1 :: others.map fun _ => none)
      else src.initializerRangesFrom stop ((src.part stop j others.head?).2 + 1) others >>=
        fun ranges => .ok ((src.part stop j others.head?).1 :: ranges) := by
  rw [initializerRangesFrom, readInitializersFrom_cons hj]
  cases (src.part stop j others.head?).1 with
  | none => rfl
  | some range => rfl

/-- The first of some ranges is that of the part of the first variable. -/
theorem part_of_ranges {stop i j : Int} {name : String} {others : List String}
    {range : Option (Int × Int)} {ranges : List (Option (Int × Int))}
    (hj : src.behindBrackets src.size (i + 1) = .ok j)
    (h : src.initializerRangesFrom stop i (name :: others) = .ok (range :: ranges)) :
    (src.part stop j others.head?).1 = range := by
  rw [initializerRangesFrom_cons hj] at h
  split at h
  · exact (List.cons.inj (Except.ok.inj h)).1
  · obtain ⟨rest, -, h⟩ := Except.bind_eq_ok h
    exact (List.cons.inj (Except.ok.inj h)).1

theorem initializerRangesFrom_next {stop i j : Int} {name : String} {others : List String}
    {range : Option (Int × Int)} {ranges : List (Option (Int × Int))}
    (hj : src.behindBrackets src.size (i + 1) = .ok j)
    (hstop : (src.part stop j others.head?).2 < stop) :
    src.initializerRangesFrom stop i (name :: others) = .ok (range :: ranges) ↔
      (src.part stop j others.head?).1 = range ∧
        src.initializerRangesFrom stop ((src.part stop j others.head?).2 + 1) others = .ok ranges := by
  refine ⟨fun h => ⟨part_of_ranges hj h, ?_⟩, fun h => ?_⟩
  · rw [initializerRangesFrom_cons hj, if_neg (Int.not_le.2 hstop)] at h
    obtain ⟨rest, hrest, h⟩ := Except.bind_eq_ok h
    rw [hrest, (List.cons.inj (Except.ok.inj h)).2]
  · rw [initializerRangesFrom_cons hj, if_neg (Int.not_le.2 hstop), h.1, h.2]
    rfl

/-- The part of the last variable goes on up to the end. -/
theorem initializerRangesFrom_last {stop i j : Int} {name : String}
    (hj : src.behindBrackets src.size (i + 1) = .ok j) :
    src.initializerRangesFrom stop i [name] = .ok [(src.part stop j none).1] := by
  have hpart : (src.part stop j none).2 = stop := by
    rw [part]
    split
    · rfl
    · rfl
  rw [initializerRangesFrom_cons hj, List.head?_nil, if_pos (Int.le_of_eq hpart.symm)]
  rfl

/-! ### Values are read at the ranges -/

theorem readRanges_cons (read : Int → Int → Except SpanFault α) (range : Option (Int × Int))
    (ranges : List (Option (Int × Int))) :
    readRanges read (range :: ranges) =
      range.mapM (fun range => read range.1 range.2) >>= fun value =>
        readRanges read ranges >>= fun values => .ok (value :: values) :=
  List.mapM_cons

theorem readRanges_none {β : Type} (read : Int → Int → Except SpanFault α) (l : List β) :
    readRanges read (l.map fun _ => none) = .ok (l.map fun _ => none) := by
  induction l with
  | nil => rfl
  | cons b l ih =>
    rw [List.map_cons, readRanges_cons, ih]
    rfl

/-- Values are read at ranges that are found, and are not read if none are found. -/
inductive ReadAt (read : Int → Int → Except SpanFault α) :
    Except SpanFault (List (Option (Int × Int))) → Except SpanFault (List (Option α)) → Prop where
  | found {ranges : List (Option (Int × Int))} {values : Except SpanFault (List (Option α))}
      (h : values = readRanges read ranges) : ReadAt read (.ok ranges) values
  | lost (fault fault' : SpanFault) : ReadAt read (.error fault) (.error fault')

theorem ReadAt.eq_readRanges {read : Int → Int → Except SpanFault α}
    {ranges : List (Option (Int × Int))} {values : Except SpanFault (List (Option α))}
    (h : ReadAt read (.ok ranges) values) : values = readRanges read ranges := by
  cases h with
  | found h => exact h

theorem ReadAt.exists_ranges {read : Int → Int → Except SpanFault α}
    {found : Except SpanFault (List (Option (Int × Int)))} {values : List (Option α)}
    (h : ReadAt read found (.ok values)) :
    ∃ ranges, found = .ok ranges ∧ readRanges read ranges = .ok values := by
  cases h with
  | found h => exact ⟨_, rfl, h.symm⟩

theorem readAt_from (src : TokenText) (read : Int → Int → Except SpanFault α) (stop i : Int)
    (names : List String) :
    ReadAt read (src.initializerRangesFrom stop i names)
      (src.readInitializersFrom read stop i names) := by
  induction names generalizing i with
  | nil => exact .found rfl
  | cons name others ih =>
    cases hj : src.behindBrackets src.size (i + 1) with
    | error fault =>
      rw [initializerRangesFrom, readInitializersFrom_error hj, readInitializersFrom_error hj]
      exact .lost fault fault
    | ok j =>
      rw [initializerRangesFrom_cons hj, readInitializersFrom_cons hj]
      generalize src.part stop j others.head? = p
      by_cases hstop : stop ≤ p.2
      · simp only [if_pos hstop]
        refine .found ?_
        rw [readRanges_cons, readRanges_none]
        rfl
      · simp only [if_neg hstop]
        have hrest := ih (p.2 + 1)
        revert hrest
        generalize src.initializerRangesFrom stop (p.2 + 1) others = found
        generalize src.readInitializersFrom read stop (p.2 + 1) others = values
        rintro (rfl | ⟨fault, fault'⟩)
        · exact .found (readRanges_cons read _ _).symm
        · cases p.1.mapM fun range => read range.1 range.2 with
          | ok value => exact .lost fault fault'
          | error fault'' => exact .lost fault fault''

/-- **The values of a field are read at its ranges.** -/
theorem readAt_initializerRanges (src : TokenText) (read : Int → Int → Except SpanFault α)
    (position : Option Position) (declared : List (String × Bool)) :
    ReadAt read (src.initializerRanges position declared)
      (src.readInitializers read position declared) := by
  rw [initializerRanges, readInitializers, readInitializers]
  by_cases hall : (declared.all fun d => !d.2) = true
  · simp only [if_pos hall]
    exact .found (readRanges_none read declared).symm
  · simp only [if_neg hall]
    cases src.indexOf "FieldDeclaration" position with
    | error fault => exact .lost fault fault
    | ok anchor =>
      show ReadAt read (src.statementEnd anchor >>= _) (src.statementEnd anchor >>= _)
      cases src.statementEnd anchor with
      | error fault => exact .lost fault fault
      | ok stop =>
        simp only [bind, Except.bind]
        cases src.firstDeclarator anchor stop ((declared.map (·.1)).headD "") with
        | none => exact .found (readRanges_none read declared).symm
        | some i => exact readAt_from src read stop i _

/-- The names of variables, and whether they have an initial value. -/
def declared (ds : List Declarator) : List (String × Bool) :=
  ds.map fun d => (d.name, d.initializer.isSome)

theorem initializerRanges_of_none {position : Option Position} {ds : List Declarator}
    (h : ∀ d ∈ ds, d.initializer = none) :
    src.initializerRanges position (declared ds) = .ok (ds.map (·.range)) := by
  have hall : ((declared ds).all fun d => !d.2) = true := by
    rw [declared, List.all_map, List.all_eq_true]
    intro d hd
    rw [Function.comp_apply, h d hd]
    rfl
  rw [initializerRanges, readInitializers]
  simp only [if_pos hall]
  refine congrArg Except.ok ?_
  rw [declared, List.map_map]
  refine List.map_congr_left fun d hd => ?_
  rw [Declarator.range, h d hd]
  rfl

/-- The ranges of a field that has an initial value are found from its first variable on. -/
theorem initializerRanges_of_some {position : Option Position} {ds : List Declarator}
    {d : Declarator} {anchor stop i : Int} (hd : d ∈ ds) (hsome : d.initializer ≠ none)
    (hanchor : src.indexOf "FieldDeclaration" position = .ok anchor)
    (hstop : src.statementEnd anchor = .ok stop)
    (hi : src.firstDeclarator anchor stop ((ds.map (·.name)).headD "") = some i) :
    src.initializerRanges position (declared ds) =
      src.initializerRangesFrom stop i (ds.map (·.name)) := by
  have hnames : (declared ds).map (·.1) = ds.map (·.name) := by
    rw [declared, List.map_map]
    rfl
  have hall : ¬((declared ds).all fun d => !d.2) = true := by
    rw [declared, List.all_map, List.all_eq_true]
    intro hall
    have hnone := hall d hd
    rw [Function.comp_apply, Bool.not_eq_true', Option.isSome_eq_false_iff] at hnone
    exact hsome (Option.isNone_iff_eq_none.1 hnone)
  rw [initializerRanges, readInitializers]
  simp only [if_neg hall, hnames, hanchor, hstop, hi, bind, Except.bind]
  rfl

/-! ### Variables -/

/-- Brackets and commas show where an initial value ends: as many brackets are closed in it as are
opened; and if a variable of the given name comes next, no comma in it, outside brackets, has that name
declared behind it. -/
def Delimited (src : TokenText) (first stop : Nat) (next : Option String) : Prop :=
  Level .brackets src.tokens first stop ∧ ∀ name ∈ next, ∀ k, first ≤ k → k < stop →
    ¬ Boundary src name (height .brackets src.tokens first) k

/-- All initial values of some variables are delimited. -/
def AllDelimited (src : TokenText) : List Declarator → Prop
  | [] => True
  | d :: ds => (∀ x, d.initializer = some x → Delimited src x.first x.stop (ds.map (·.name)).head?) ∧
      AllDelimited src ds

/-- The initial values of a field can be told apart: the first variable, if it has a value, is not
named as its type, if that is an array; and all values are delimited. -/
def Separable (src : TokenText) (type : TypeRef) (ds : List Declarator) : Prop :=
  (∀ d, ds.head? = some d → d.initializer ≠ none → type.arrayName? ≠ some d.name) ∧
    AllDelimited src ds

theorem separable_of_none {type : TypeRef} {ds : List Declarator}
    (h : ∀ d ∈ ds, d.initializer = none) : Separable src type ds := by
  refine ⟨fun d hd hsome => absurd (h d (List.mem_of_head? hd)) hsome, ?_⟩
  induction ds with
  | nil => trivial
  | cons d ds ih =>
    refine ⟨fun x hx => ?_, ih fun d hd => h d (List.mem_cons_of_mem _ hd)⟩
    rw [h d List.mem_cons_self] at hx
    cases hx

/-- A variable of several is followed by a comma or by a semicolon. -/
theorem declaratorAt_head {d : Declarator} {ds : List Declarator}
    (h : DeclaratorsAt src.tokens i (d :: ds) last) (hsemicolon : Stands src.tokens last ";") :
    ∃ k value, DeclaratorAt src.tokens i d k ∧ Stands src.tokens k value ∧ value ∈ [",", ";"] := by
  cases h with
  | last h => exact ⟨last, ";", h, hsemicolon, by decide⟩
  | @more _ _ k _ _ h hcomma _ => exact ⟨k, ",", h, hcomma, by decide⟩

theorem behindBrackets_of_declaratorAt {d : Declarator} {value : String}
    (h : DeclaratorAt src.tokens i d k) (hend : Stands src.tokens k value)
    (hvalue : value ∈ [",", ";"]) :
    src.behindBrackets src.size ((i : Int) + 1) = .ok ((i + 1 + 2 * d.dimensions : Nat) : Int) := by
  have hmarks : ∀ value ∈ [",", ";"], value ≠ "[" := by decide
  have hsize := count_le_of_pairs h.dimensions
  rw [← Int.natCast_succ]
  cases hd : d.initializer with
  | none =>
    rw [h.absent hd] at hend
    exact behindBrackets_of_pairs h.dimensions hsize hend (hmarks value hvalue)
  | some x => exact behindBrackets_of_pairs h.dimensions hsize (h.value x hd).1 (by decide)

theorem part_of_equals {stop : Int} {next : Option String} (h : Stands src.tokens j "=") :
    src.part stop j next =
      (some (((j + 1 : Nat) : Int), src.declaratorBoundary (j + 1 : Nat) stop next - 1),
        src.declaratorBoundary (j + 1 : Nat) stop next) :=
  if_pos ((hasValue_iff (by decide)).2 h)

theorem part_of_ne_equals {stop : Int} {next : Option String} {value : String}
    (h : Stands src.tokens j value) (hvalue : value ≠ "=") :
    src.part stop j next = (none, src.declaratorBoundary j stop next) := by
  obtain ⟨t, ht, rfl⟩ := h
  exact if_neg (by rw [hasValue_eq_false ht (by decide) hvalue]; exact Bool.false_ne_true)

section

variable (hproper : ∀ t ∈ src.tokens, Proper t)
include hproper

theorem declaratorAt_of_layout {d : Declarator} {value : String} (h : DeclaratorAt src.tokens i d k)
    (hend : Stands src.tokens k value) (hvalue : value ∈ [",", ";"]) :
    d.name ≠ "" ∧ src.declaratorAt i d.name = true := by
  have hmarks : ∀ value ∈ [",", ";"], value ∈ declaratorMarks := by decide
  obtain ⟨t, ht, hcls, hname⟩ := h.name
  constructor
  · rw [← hname]
    exact value_ne_of_identifier hproper ht hcls (by decide)
  · refine declaratorAt_iff.2 ⟨⟨t, ht, hcls, hname⟩, ?_⟩
    have hdimensions := h.dimensions
    have habsent := h.absent
    have hassigned := h.value
    cases hn : d.dimensions with
    | succ n =>
      rw [hn] at hdimensions
      exact ⟨"[", by decide, hdimensions.1⟩
    | zero =>
      rw [hn] at habsent hassigned
      cases hd : d.initializer with
      | none =>
        rw [habsent hd] at hend
        exact ⟨value, hmarks value hvalue, hend⟩
      | some x => exact ⟨"=", by decide, (hassigned x hd).1⟩

/-- The first of some variables is declared where they stand. -/
theorem declaratorAt_of_declaratorsAt {ds : List Declarator}
    (h : DeclaratorsAt src.tokens i ds last) (hsemicolon : Stands src.tokens last ";") :
    ∃ d rest, ds = d :: rest ∧ d.name ≠ "" ∧ src.declaratorAt i d.name = true := by
  cases h with
  | last h => exact ⟨_, _, rfl, declaratorAt_of_layout hproper h hsemicolon (by decide)⟩
  | more h hcomma _ => exact ⟨_, _, rfl, declaratorAt_of_layout hproper h hcomma (by decide)⟩

/-- The part of a variable with an initial value, which is as high as the variable. -/
theorem part_of_value {d : Declarator} {x : Extent} (h : DeclaratorAt src.tokens i d k)
    (hd : d.initializer = some x) (stop : Int) (next : Option String) :
    src.part stop ((i + 1 + 2 * d.dimensions : Nat) : Int) next =
        (some ((x.first : Int), src.declaratorBoundary x.first stop next - 1),
          src.declaratorBoundary x.first stop next) ∧
      height .brackets src.tokens x.first = height .brackets src.tokens i ∧
      Rises .brackets src.tokens x.first k := by
  obtain ⟨hequals, rfl, hrises⟩ := h.value x hd
  rw [part_of_equals hequals, show i + 1 + 2 * d.dimensions + 1 = i + 2 + 2 * d.dimensions by omega]
  refine ⟨rfl, ?_, hrises⟩
  rw [← (h.nested hproper).level, ← (hequals.nested (by decide)).level,
    show i + 1 + 2 * d.dimensions + 1 = i + 2 + 2 * d.dimensions by omega]

/-- **The part of a variable is the initial value that it was read with, just if this is delimited; and
then the variable ends where it did.** -/
theorem part_spec {d : Declarator} {name : String} {stop : Int} (h : DeclaratorAt src.tokens i d k)
    (hcomma : Stands src.tokens k ",") (hname : name ≠ "")
    (hat : src.declaratorAt (k + 1 : Nat) name = true) (hstop : k < stop) :
    ((src.part stop ((i + 1 + 2 * d.dimensions : Nat) : Int) (some name)).1 = d.range ↔
      ∀ x, d.initializer = some x → Delimited src x.first x.stop (some name)) ∧
    ((src.part stop ((i + 1 + 2 * d.dimensions : Nat) : Int) (some name)).1 = d.range →
      (src.part stop ((i + 1 + 2 * d.dimensions : Nat) : Int) (some name)).2 = k ∧
        height .brackets src.tokens k = height .brackets src.tokens i) := by
  rw [Declarator.range]
  cases hd : d.initializer with
  | none =>
    have hend := h.absent hd
    have hboundary : src.declaratorBoundary k stop (some name) = k :=
      (declaratorBoundary_eq_iff hname le_rfl hstop (fun m _ _ => by omega) hcomma hat).2
        ⟨rfl, fun m _ _ => by omega⟩
    rw [← hend, part_of_ne_equals hcomma (by decide), hboundary]
    refine ⟨iff_of_true rfl nofun, fun _ => ⟨rfl, ?_⟩⟩
    rw [hend, (h.nested hproper).level]
  | some x =>
    obtain ⟨hpart, hlevel, hrises⟩ := part_of_value hproper h hd stop (some name)
    have hx : x.stop = k := by
      obtain ⟨-, rfl, -⟩ := h.value x hd
      rfl
    have hiff := declaratorBoundary_eq_iff hname hrises.le hstop
      (fun m hlo hhi => (hrises.clear m hlo hhi).imp fun _ ht => ht.1) hcomma hat
    have hrange : some ((x.first : Int), src.declaratorBoundary x.first stop (some name) - 1) =
        some ((x.first : Int), (x.stop : Int) - 1) ↔
          src.declaratorBoundary x.first stop (some name) = k := by
      rw [Option.some_inj, Prod.mk.injEq, and_iff_right rfl, hx]
      omega
    rw [hpart, Option.map_some, hrange]
    refine ⟨hiff.trans ⟨?_, fun hdelimited => ?_⟩, fun hend => ⟨hend, (hiff.1 hend).1.trans hlevel⟩⟩
    · rintro ⟨hup, hnone⟩ x' ⟨⟩
      rw [hx]
      refine ⟨hup, ?_⟩
      rintro _ ⟨⟩
      exact hnone
    · obtain ⟨hup, hnone⟩ := hdelimited x rfl
      rw [hx] at hup hnone
      exact ⟨hup, hnone name rfl⟩

/-- **The ranges of variables are those of their initial values, just if these are delimited.** -/
theorem initializerRangesFrom_eq_ok_iff {ds : List Declarator} {stop base : Int}
    (h : DeclaratorsAt src.tokens i ds last) (hsemicolon : Stands src.tokens last ";")
    (hbase : height .brackets src.tokens i = base) (hle : last ≤ stop)
    (hstop : stop = last ↔ height .brackets src.tokens last = base) :
    src.initializerRangesFrom stop i (ds.map (·.name)) = .ok (ds.map (·.range)) ↔
      AllDelimited src ds := by
  induction h with
  | @last i j d h =>
    have hj := behindBrackets_of_declaratorAt h hsemicolon (by decide)
    rw [List.map_singleton, List.map_singleton, initializerRangesFrom_last hj, AllDelimited,
      AllDelimited, and_true, Except.ok.injEq, List.singleton_inj, Declarator.range]
    cases hd : d.initializer with
    | none =>
      rw [h.absent hd] at hsemicolon
      rw [part_of_ne_equals hsemicolon (by decide)]
      exact iff_of_true rfl nofun
    | some x =>
      -- The last value is taken to end where the statement does, which is right if that is level.
      obtain ⟨hpart, hlevel, -⟩ := part_of_value hproper h hd stop none
      rw [hbase] at hlevel
      obtain ⟨-, rfl, -⟩ := h.value x hd
      rw [hpart, Option.map_some, Option.some_inj, Prod.mk.injEq, and_iff_right rfl]
      constructor
      · rintro heq x ⟨⟩
        have hend : stop = j := by
          change stop - 1 = (j : Int) - 1 at heq
          omega
        exact ⟨(hstop.1 hend).trans hlevel.symm, nofun⟩
      · intro hdelimited
        rw [← hstop.2 ((hdelimited _ rfl).1.trans hlevel)]
        rfl
  | @more i j k d ds h hcomma hrest ih =>
    have hj := behindBrackets_of_declaratorAt h hcomma (by decide)
    have hk : (k : Int) < stop := by
      have := (hrest.rises hproper).le
      omega
    obtain ⟨e, rest, hds, hname, hat⟩ := declaratorAt_of_declaratorsAt hproper hrest hsemicolon
    have hnext : (ds.map (·.name)).head? = some e.name := by rw [hds]; rfl
    have hcommaLevel := (hcomma.nested (by decide)).level .brackets
    obtain ⟨hiff, hthen⟩ := part_spec hproper h hcomma hname hat hk
    rw [List.map_cons, List.map_cons, AllDelimited, hnext]
    -- Only from the right end of this variable does the search go on level with the next.
    by_cases hrange : (src.part stop ((i + 1 + 2 * d.dimensions : Nat) : Int) (some e.name)).1 = d.range
    · obtain ⟨hend, hlevel⟩ := hthen hrange
      rw [initializerRangesFrom_next hj (by rw [hnext, hend]; exact hk), hnext, hend,
        and_iff_right hrange, and_iff_right (hiff.1 hrange), ← Int.natCast_succ]
      exact ih hsemicolon ((hcommaLevel.trans hlevel).trans hbase) hle hstop
    · refine iff_of_false (fun hfound => hrange ?_) fun hdelimited => hrange (hiff.2 hdelimited.1)
      rw [← part_of_ranges hj hfound, hnext]

/-! ### Fields -/

/-- The walk from a name passes its dimensions, so without an initial value the part of a variable is
the same from its name as from behind its dimensions. -/
theorem part_from_name {d : Declarator} {ds : List Declarator} {stop : Int}
    (h : DeclaratorsAt src.tokens i (d :: ds) last) (hsemicolon : Stands src.tokens last ";")
    (hle : last ≤ stop) (hd : d.initializer = none) :
    src.part stop i (ds.map (·.name)).head? =
      src.part stop ((i + 1 + 2 * d.dimensions : Nat) : Int) (ds.map (·.name)).head? := by
  have hpart : ∀ {next : Option String}, (∃ t, src.tokens[i]? = some t ∧ t.cls = .identifier) →
      src.part stop i next = (none, src.declaratorBoundary i stop next) := by
    rintro next ⟨t, ht, hcls⟩
    exact part_of_ne_equals ⟨t, ht, rfl⟩ (value_ne_of_identifier hproper ht hcls (by decide))
  cases h with
  | last h =>
    obtain ⟨t, ht, hcls, -⟩ := h.name
    rw [h.absent hd] at hsemicolon
    rw [hpart ⟨t, ht, hcls⟩, part_of_ne_equals hsemicolon (by decide)]
    rfl
  | @more _ _ k _ _ h hcomma hrest =>
    obtain ⟨t, ht, hcls, -⟩ := h.name
    obtain ⟨e, rest, rfl, hname, hat⟩ := declaratorAt_of_declaratorsAt hproper hrest hsemicolon
    have hk : (k : Int) < stop := by
      have := (hrest.rises hproper).le
      omega
    have hend := h.absent hd
    have hrises := (h.nested hproper).rises .brackets
    rw [← hend] at hrises ⊢
    rw [hpart ⟨t, ht, hcls⟩, part_of_ne_equals hcomma (by decide)]
    refine congrArg (Prod.mk none) ?_
    show src.declaratorBoundary i stop (some e.name) = src.declaratorBoundary k stop (some e.name)
    rw [(declaratorBoundary_eq_iff hname le_rfl hk (fun m _ _ => by omega) hcomma hat).2
      ⟨rfl, fun m _ _ => by omega⟩]
    refine (declaratorBoundary_eq_iff hname hrises.le hk
      (fun m hlo hhi => (hrises.clear m hlo hhi).imp fun _ ht => ht.1) hcomma hat).2 ⟨?_, ?_⟩
    · rw [hend, (h.nested hproper).level]
    · -- A name and brackets stand here, but no comma.
      rintro m hlo hhi ⟨hstands, -⟩
      rcases Nat.eq_or_lt_of_le hlo with rfl | hlo
      · exact value_ne_of_identifier hproper ht hcls (by decide) (Stands.unique ⟨t, ht, rfl⟩ hstands)
      · rcases stands_of_pairs h.dimensions hlo (by omega) with h | h
        · exact absurd (hstands.unique h) (by decide)
        · exact absurd (hstands.unique h) (by decide)

/-- If the name of the type is taken for that of the first variable, the dimensions of the type are
taken for those of the variable. -/
theorem behindBrackets_of_clash {n : Nat} {t : Token} (hpairs : Pairs src.tokens (j + 1) n)
    (ht : src.tokens[j + 1 + 2 * n]? = some t) (hcls : t.cls = .identifier) :
    src.behindBrackets src.size ((j : Int) + 1) = .ok ((j + 1 + 2 * n : Nat) : Int) := by
  rw [← Int.natCast_succ]
  exact behindBrackets_of_pairs hpairs (count_le_of_pairs hpairs) ⟨t, ht, rfl⟩
    (value_ne_of_identifier hproper ht hcls (by decide))

/-- In that case no initial value is found for the first variable. -/
theorem initializerRangesFrom_ne_of_clash {n : Nat} {t : Token} {d : Declarator}
    {ds : List Declarator} {stop : Int} (hpairs : Pairs src.tokens (j + 1) n)
    (ht : src.tokens[j + 1 + 2 * n]? = some t) (hcls : t.cls = .identifier)
    (hd : d.initializer ≠ none) :
    src.initializerRangesFrom stop j ((d :: ds).map (·.name)) ≠ .ok ((d :: ds).map (·.range)) := by
  intro hfound
  have hpart := part_of_ranges (behindBrackets_of_clash hproper hpairs ht hcls) hfound
  rw [part_of_ne_equals ⟨t, ht, rfl⟩ (value_ne_of_identifier hproper ht hcls (by decide))] at hpart
  exact hd (Option.map_eq_none_iff.1 hpart.symm)

/-- If the first variable has no initial value, the same ranges are found nevertheless. -/
theorem initializerRangesFrom_of_clash {n : Nat} {t : Token} {d : Declarator} {ds : List Declarator}
    {stop : Int} (hpairs : Pairs src.tokens (j + 1) n)
    (ht : src.tokens[j + 1 + 2 * n]? = some t) (hcls : t.cls = .identifier)
    (hds : DeclaratorsAt src.tokens (j + 1 + 2 * n) (d :: ds) last)
    (hsemicolon : Stands src.tokens last ";") (hle : last ≤ stop) (hd : d.initializer = none) :
    src.initializerRangesFrom stop j ((d :: ds).map (·.name)) =
      src.initializerRangesFrom stop ((j + 1 + 2 * n : Nat) : Int) ((d :: ds).map (·.name)) := by
  obtain ⟨k, value, hfirst, hend, hvalue⟩ := declaratorAt_head hds hsemicolon
  rw [List.map_cons, initializerRangesFrom_cons (behindBrackets_of_declaratorAt hfirst hend hvalue),
    initializerRangesFrom_cons (behindBrackets_of_clash hproper hpairs ht hcls),
    part_from_name hproper hds hsemicolon hle hd]

/-- **The ranges of a field are those that its initial values were read from, just if these can be told
apart.** -/
theorem initializerRanges_eq_ok_iff (hspread : Spread src) {type : TypeRef} {ds : List Declarator}
    {anchor : Nat} {t : Token} (h : FieldAt src.tokens anchor type ds last)
    (ht : src.tokens[anchor]? = some t) (hmore : last + 1 < src.size) :
    src.initializerRanges (some t.position) (declared ds) = .ok (ds.map (·.range)) ↔
      Separable src type ds := by
  by_cases hnone : ∀ d ∈ ds, d.initializer = none
  · exact iff_of_true (initializerRanges_of_none hnone) (separable_of_none hnone)
  obtain ⟨dₛ, hmem, hsome⟩ : ∃ d ∈ ds, d.initializer ≠ none := by simpa using hnone
  obtain ⟨i, htype, hds⟩ := h.parts
  obtain ⟨d, rest, rfl, -, hat⟩ := declaratorAt_of_declaratorsAt hproper hds h.semicolon
  obtain ⟨stop, hstop, hle, hlevel⟩ := statementEnd_spec (h.rises hproper) h.semicolon hmore
  have hranges := fun {i : Int} => initializerRanges_of_some (i := i) hmem hsome
    (indexOf_position hspread ht "FieldDeclaration") hstop
  have hiff := initializerRangesFrom_eq_ok_iff hproper hds h.semicolon
    ((htype.nested hproper).level .brackets) hle hlevel
  obtain ⟨⟨u, hu, hcls, hname⟩, -⟩ := declaratorAt_iff.1 hat
  have hi : (i : Int) < stop := by
    have hlast := (hds.rises hproper).le
    have hne : i ≠ last := by
      rintro rfl
      exact value_ne_of_identifier hproper hu hcls (by decide)
        (Stands.unique ⟨u, hu, rfl⟩ h.semicolon)
    omega
  rw [← hname] at hat
  rcases firstDeclarator_of_typeAt hproper htype hu hcls hat hi with
    ⟨hfree, hfirst⟩ | ⟨hclash, m, n, hpairs, hm, hfirst⟩
  · rw [hname] at hfree hfirst
    rw [hranges hfirst, hiff, Separable, and_iff_right]
    rintro _ ⟨⟩ -
    exact hfree
  · rw [hname] at hclash hfirst
    subst hm
    rw [hranges hfirst]
    cases hd : d.initializer with
    | some x =>
      refine iff_of_false ?_ fun hsep => hsep.1 d rfl (by rw [hd]; nofun) hclash
      exact initializerRangesFrom_ne_of_clash hproper hpairs hu hcls (by rw [hd]; nofun)
    | none =>
      rw [initializerRangesFrom_of_clash hproper hpairs hu hcls hds h.semicolon hle hd, hiff, Separable,
        and_iff_right]
      rintro _ ⟨⟩ hvalue
      exact absurd hd hvalue

end

/-- **The initial values of a field are cut from the tokens that they were read from, just if they can
be told apart.**  The variables stand behind the type, with their values behind equals signs, as
`FieldAt` says.  The texts are always cut from the ranges that are found; if the values can be told
apart, each variable has the text of its own value, and none without a value. -/
theorem initializerRanges_eq_extents_iff {code : WideString} {src : TokenText} {tree : CompilationUnit}
    (h : parseTree code = .ok (src, tree)) {header : Header} {type : TypeRef}
    {ds : List Declarator} (hd : .mk header (.field type ds) ∈ Declaration.allOf tree.types) :
    (∃ anchor last t, src.tokens[anchor]? = some t ∧ header.position = some t.position ∧
      FieldAt src.tokens anchor type ds last) ∧
    (src.initializerRanges header.position (declared ds) = .ok (ds.map (·.range)) ↔
      Separable src type ds) ∧
    (∀ texts, src.initializers header.position (declared ds) = .ok texts →
      ∃ ranges, src.initializerRanges header.position (declared ds) = .ok ranges ∧
        readRanges src.cut ranges = .ok texts) ∧
    (Separable src type ds →
      src.initializers header.position (declared ds) = readRanges src.cut (ds.map (·.range))) := by
  obtain ⟨hspread, hproper, hall⟩ := declarationAt_of_parseTree h
  obtain ⟨⟨anchor, hheader, last, hfield, hend⟩, hmore⟩ := hall _ hd
  obtain ⟨t, ht, hposition⟩ := hheader.position
  change header.position = some t.position at hposition
  have hsize : last + 1 < src.size := by
    rw [← hend]
    exact hmore.resolve_left nofun
  have hiff := initializerRanges_eq_ok_iff hproper hspread hfield ht hsize
  rw [← hposition] at hiff
  have hread := readAt_initializerRanges src src.cut header.position (declared ds)
  rw [← initializers] at hread
  refine ⟨⟨anchor, last, t, ht, hposition, hfield⟩, hiff, fun texts htexts => ?_,
    fun hseparable => ?_⟩
  · rw [htexts] at hread
    exact hread.exists_ranges
  · rw [hiff.2 hseparable] at hread
    exact hread.eq_readRanges

/-! ### Two sources -/

/-- A field of a source that passes a test. -/
theorem exists_field_of_declaration? {n : Nat} (code : WideString)
    (test : TokenText → Header → TypeRef → List Declarator → Bool)
    (h : (declaration? code n).any (fun found => match found.2 with
      | .mk header (.field type ds) => test found.1 header type ds
      | _ => false) = true) :
    ∃ src tree header type ds, parseTree code = .ok (src, tree) ∧
      .mk header (.field type ds) ∈ Declaration.allOf tree.types ∧
        test src header type ds = true := by
  obtain ⟨src, tree, d, hparse, hd, htest⟩ := exists_of_declaration? (n := n) code
    (fun src d => match d with
      | .mk header (.field type ds) => test src header type ds
      | _ => false) h
  obtain ⟨header, body⟩ := d
  cases body with
  | field type ds => exact ⟨src, tree, header, type, ds, hparse, hd, htest⟩
  | method _ _ => cases htest
  | constructor _ => cases htest
  | type _ _ _ _ _ _ _ => cases htest

/-- Commas between braces and parentheses, and the names behind them, do not end an initial value. -/
theorem initializerRanges_of_nested_commas :
    ∃ src tree header type ds,
      parseTree "class T \x7b A<b>[] a[] = \x7bf(1, b), b\x7d, b, c = x; \x7d" = .ok (src, tree) ∧
      .mk header (.field type ds) ∈ Declaration.allOf tree.types ∧
      ds.map (·.range) = [some (13, 22), none, some (28, 28)] ∧
      src.initializerRanges header.position (declared ds) = .ok (ds.map (·.range)) ∧
      Separable src type ds := by
  obtain ⟨src, tree, header, type, ds, hparse, hd, htest⟩ := exists_field_of_declaration? (n := 1)
    "class T \x7b A<b>[] a[] = \x7bf(1, b), b\x7d, b, c = x; \x7d"
    (fun src header _ ds => ds.map (·.range) = [some (13, 22), none, some (28, 28)] &&
      src.initializerRanges header.position (declared ds) = .ok (ds.map (·.range)))
    (by decide +kernel)
  rw [Bool.and_eq_true, decide_eq_true_eq, decide_eq_true_eq] at htest
  obtain ⟨hextents, hranges⟩ := htest
  exact ⟨src, tree, header, type, ds, hparse, hd, hextents, hranges,
    (initializerRanges_eq_extents_iff hparse hd).2.1.1 hranges⟩

/-- The variable `Foo` has the initial value `x`, but none is found: the name of the type is taken for
that of the variable. -/
theorem no_initializer_of_type_name :
    ∃ src tree header type ds,
      parseTree "class T \x7b Foo[] Foo = x; \x7d" = .ok (src, tree) ∧
      .mk header (.field type ds) ∈ Declaration.allOf tree.types ∧
      ds.map (·.range) = [some (8, 8)] ∧ type.arrayName? = some "Foo" ∧
      src.initializers header.position (declared ds) = .ok [none] := by
  obtain ⟨src, tree, header, type, ds, hparse, hd, htest⟩ := exists_field_of_declaration? (n := 1)
    "class T \x7b Foo[] Foo = x; \x7d"
    (fun src header type ds => ds.map (·.range) = [some (8, 8)] && type.arrayName? = some "Foo" &&
      src.initializers header.position (declared ds) = .ok [none])
    (by decide +kernel)
  rw [Bool.and_eq_true, Bool.and_eq_true, decide_eq_true_eq, decide_eq_true_eq,
    decide_eq_true_eq] at htest
  exact ⟨src, tree, header, type, ds, hparse, hd, htest.1.1, htest.1.2, htest.2⟩

end SourceDoc.TokenText
