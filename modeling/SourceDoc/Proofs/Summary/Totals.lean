import SourceDoc.Summary.Aggregates
import Mathlib.Data.List.Pairwise

/-!
# Aggregates of several lists of units

What the units of a project may throw is listed with each name once, where it occurs first.  The names
are passed unit by unit, method by method and, within a method, in order (`mentions`), and a name is left
out if it was seen before.  So the list is ordered by first mention (`pairwise_newNames`), and that of two
projects together is that of the first, followed by what is new in that of the second
(`newNames_append`).  The counts of the kinds of units are added.
-/

namespace SourceDoc.Summary

/-! ### Names that are new -/

section
variable {seen seen' names : List WideString} {name : WideString}

theorem newNames_cons_seen (h : name ∈ seen) : newNames seen (name :: names) = newNames seen names :=
  if_pos (List.contains_iff_mem.2 h)

theorem newNames_cons_new (h : name ∉ seen) :
    newNames seen (name :: names) = name :: newNames (name :: seen) names :=
  if_neg fun hmem => h (List.contains_iff_mem.1 hmem)

theorem mem_newNames : name ∈ newNames seen names ↔ name ∈ names ∧ name ∉ seen := by
  induction names generalizing seen with
  | nil => simp [newNames]
  | cons first rest ih =>
    by_cases hfirst : first ∈ seen
    · rw [newNames_cons_seen hfirst, ih, List.mem_cons]
      refine ⟨fun h => ⟨.inr h.1, h.2⟩, fun h => ⟨h.1.resolve_left ?_, h.2⟩⟩
      rintro rfl
      exact h.2 hfirst
    · rw [newNames_cons_new hfirst, List.mem_cons, ih, List.mem_cons, List.mem_cons]
      by_cases hname : name = first
      · subst hname
        exact iff_of_true (.inl rfl) ⟨.inl rfl, hfirst⟩
      · simp [hname]

theorem nodup_newNames : (newNames seen names).Nodup := by
  induction names generalizing seen with
  | nil => exact List.nodup_nil
  | cons first rest ih =>
    by_cases hfirst : first ∈ seen
    · rw [newNames_cons_seen hfirst]
      exact ih
    · rw [newNames_cons_new hfirst]
      exact List.nodup_cons.2 ⟨fun hmem => (mem_newNames.1 hmem).2 List.mem_cons_self, ih⟩

/-- If more names were seen, these are left out, and nothing else changes. -/
theorem newNames_of_more {more : List WideString}
    (h : ∀ name, name ∈ seen' ↔ name ∈ seen ∨ name ∈ more) :
    newNames seen' names = (newNames seen names).filter (· ∉ more) := by
  induction names generalizing seen seen' with
  | nil => rfl
  | cons first rest ih =>
    by_cases hfirst : first ∈ seen
    · rw [newNames_cons_seen hfirst, newNames_cons_seen ((h first).2 (.inl hfirst)), ih h]
    rw [newNames_cons_new hfirst]
    by_cases hmore : first ∈ more
    · rw [newNames_cons_seen ((h first).2 (.inr hmore)),
        List.filter_cons_of_neg (by simpa using hmore)]
      refine ih fun name => ?_
      rw [h name, List.mem_cons, or_assoc, or_iff_right_of_imp (a := name = first)]
      rintro rfl
      exact .inr hmore
    · rw [newNames_cons_new fun hmem => ((h first).1 hmem).elim hfirst hmore,
        List.filter_cons_of_pos (by simpa using hmore)]
      refine congrArg (first :: ·) (ih fun name => ?_)
      rw [List.mem_cons, List.mem_cons, h name, or_assoc]

/-- **What is new in two lists is what is new in the first, and then what is new in the second once the
first was seen.** -/
theorem newNames_append {others : List WideString}
    (h : ∀ name, name ∈ seen' ↔ name ∈ seen ∨ name ∈ names) :
    newNames seen (names ++ others) = newNames seen names ++ newNames seen' others := by
  induction names generalizing seen with
  | nil =>
    have hsame : newNames seen' others = (newNames seen others).filter (· ∉ []) := newNames_of_more h
    rw [hsame]
    exact (List.filter_eq_self.2 fun _ _ => rfl).symm
  | cons first rest ih =>
    by_cases hfirst : first ∈ seen
    · rw [List.cons_append, newNames_cons_seen hfirst, newNames_cons_seen hfirst]
      refine ih fun name => ?_
      rw [h name, List.mem_cons, or_left_comm, or_iff_right_of_imp (a := name = first)]
      rintro rfl
      exact .inl hfirst
    · rw [List.cons_append, newNames_cons_new hfirst, newNames_cons_new hfirst, List.cons_append]
      refine congrArg (first :: ·) (ih fun name => ?_)
      rw [h name, List.mem_cons, List.mem_cons, or_left_comm, or_assoc]

/-- **New names are in the order of their first mention.**  Names are mentioned at places, one place
before the other; a new name has a mention before all those of the new names behind it. -/
theorem pairwise_newNames {α : Type} {before : α → α → Prop} {mentions : List (α × WideString)}
    (h : mentions.Pairwise fun m n => before m.1 n.1) :
    (newNames seen (mentions.map (·.2))).Pairwise fun first second =>
      ∃ place, (place, first) ∈ mentions ∧ ∀ other, (other, second) ∈ mentions → before place other := by
  induction mentions generalizing seen with
  | nil => exact .nil
  | cons mention rest ih =>
    obtain ⟨hbefore, hrest⟩ := List.pairwise_cons.1 h
    -- Once the name of the first mention was seen, new names have all their mentions behind it.
    have hbehind : ∀ {seen : List WideString} {name : WideString}, mention.2 ∈ seen →
        name ∈ newNames seen (rest.map (·.2)) → ∀ place, (place, name) ∈ mention :: rest →
          (place, name) ∈ rest := by
      intro seen name hseen hname place hplace
      refine (List.mem_cons.1 hplace).resolve_left ?_
      rintro rfl
      exact (mem_newNames.1 hname).2 hseen
    have hpairs : ∀ {seen : List WideString}, mention.2 ∈ seen →
        (newNames seen (rest.map (·.2))).Pairwise fun first second =>
          ∃ place, (place, first) ∈ mention :: rest ∧
            ∀ other, (other, second) ∈ mention :: rest → before place other := by
      intro seen hseen
      refine (ih hrest).imp_of_mem ?_
      rintro first second - hsecond ⟨place, hplace, hother⟩
      exact ⟨place, List.mem_cons_of_mem _ hplace, fun other hmem =>
        hother other (hbehind hseen hsecond other hmem)⟩
    rw [List.map_cons]
    by_cases hseen : mention.2 ∈ seen
    · rw [newNames_cons_seen hseen]
      exact hpairs hseen
    · rw [newNames_cons_new hseen]
      refine List.pairwise_cons.2 ⟨fun name hname => ?_, hpairs List.mem_cons_self⟩
      exact ⟨mention.1, List.mem_cons_self, fun other hmem =>
        hbefore _ (hbehind List.mem_cons_self hname other hmem)⟩

end

/-! ### Mentions -/

/-- Where a name is listed: the unit, the method of the unit, and the position among what the method may
throw, each counted from zero. -/
structure Mention where
  /-- The index of the unit. -/
  unit : Nat
  /-- The index of the method. -/
  method : Nat
  /-- The position in the list of the method. -/
  position : Nat
  deriving DecidableEq, Repr

/-- One mention comes before another: in an earlier unit, or in an earlier method of the same unit, or
earlier in the same method. -/
def Mention.Before (m n : Mention) : Prop :=
  m.unit < n.unit ∨ m.unit = n.unit ∧
    (m.method < n.method ∨ m.method = n.method ∧ m.position < n.position)

/-- A name is what a mention lists. -/
def MentionedAt (units : List UnitModel) (mention : Mention) (name : WideString) : Prop :=
  ∃ unit method, units[mention.unit]? = some unit ∧ unit.methods[mention.method]? = some method ∧
    method.exceptions[mention.position]? = some name

/-- All that the units list, with its mentions. -/
def mentions (units : List UnitModel) : List (Mention × WideString) :=
  units.zipIdx.flatMap fun unit => unit.1.methods.zipIdx.flatMap fun method =>
    method.1.exceptions.zipIdx.map fun name => (⟨unit.2, method.2, name.2⟩, name.1)

theorem mem_mentions {units : List UnitModel} {mention : Mention} {name : WideString} :
    (mention, name) ∈ mentions units ↔ MentionedAt units mention name := by
  simp only [mentions, List.mem_flatMap, List.mem_map, Prod.exists, List.mem_zipIdx_iff_getElem?,
    Prod.mk.injEq]
  constructor
  · rintro ⟨unit, i, hunit, method, j, hmethod, _, k, hname, rfl, rfl⟩
    exact ⟨unit, method, hunit, hmethod, hname⟩
  · rintro ⟨unit, method, hunit, hmethod, hname⟩
    exact ⟨unit, _, hunit, method, _, hmethod, name, _, hname, rfl, rfl⟩

theorem map_mentions (units : List UnitModel) :
    (mentions units).map (·.2) = units.flatMap fun unit => unit.methods.flatMap (·.exceptions) := by
  have hpass : ∀ {α β : Type} (f : α → List β) (l : List α),
      l.zipIdx.flatMap (fun entry => f entry.1) = l.flatMap f := by
    intro α β f l
    rw [← List.flatMap_map Prod.fst f, List.zipIdx_map_fst]
  have hlast : ∀ l : List WideString, l.zipIdx.map (fun entry => entry.1) = l := List.zipIdx_map_fst 0
  simp only [mentions, List.map_flatMap, List.map_map, Function.comp_def, hlast,
    hpass fun method : MethodModel => method.exceptions]
  exact hpass (fun unit : UnitModel => unit.methods.flatMap (·.exceptions)) units

/-- The mentions come one before the other. -/
theorem pairwise_mentions (units : List UnitModel) :
    (mentions units).Pairwise fun m n => m.1.Before n.1 := by
  have hindex : ∀ {α : Type} (l : List α), l.zipIdx.Pairwise fun a b => a.2 < b.2 := by
    intro α l
    rw [← List.pairwise_map (f := Prod.snd) (R := (· < ·)), List.zipIdx_map_snd]
    exact List.pairwise_lt_range' 1
  refine List.pairwise_flatMap.2 ⟨fun unit _ => ?_, (hindex units).imp fun hlt m hm n hn => ?_⟩
  · refine List.pairwise_flatMap.2 ⟨fun method _ => ?_,
      (hindex unit.1.methods).imp fun hlt m hm n hn => ?_⟩
    · exact List.pairwise_map.2 ((hindex method.1.exceptions).imp fun hlt => .inr ⟨rfl, .inr ⟨rfl, hlt⟩⟩)
    · obtain ⟨_, -, rfl⟩ := List.mem_map.1 hm
      obtain ⟨_, -, rfl⟩ := List.mem_map.1 hn
      exact .inr ⟨rfl, .inl hlt⟩
  · obtain ⟨_, -, hm⟩ := List.mem_flatMap.1 hm
    obtain ⟨_, -, rfl⟩ := List.mem_map.1 hm
    obtain ⟨_, -, hn⟩ := List.mem_flatMap.1 hn
    obtain ⟨_, -, rfl⟩ := List.mem_map.1 hn
    exact .inl hlt

/-! ### What may be thrown -/

theorem exceptionTypes_eq (units : List UnitModel) :
    exceptionTypes units = newNames [] ((mentions units).map (·.2)) := by
  rw [map_mentions, exceptionTypes]

theorem exceptionTypes_append (a b : List UnitModel) :
    exceptionTypes (a ++ b) =
      exceptionTypes a ++ (exceptionTypes b).filter (· ∉ exceptionTypes a) := by
  have hseen : ∀ name, name ∈ exceptionTypes a ↔ name ∈ ([] : List WideString) ∨
      name ∈ a.flatMap fun unit => unit.methods.flatMap (·.exceptions) := by
    simp [exceptionTypes, mem_newNames]
  have hnew : newNames (exceptionTypes a) (b.flatMap fun unit => unit.methods.flatMap (·.exceptions)) =
      (exceptionTypes b).filter (· ∉ exceptionTypes a) := newNames_of_more (by simp)
  rw [exceptionTypes, List.flatMap_append, newNames_append hseen, hnew]
  rfl

/-! ### Counts -/

theorem kindCounts_append (a b : List UnitModel) :
    kindCounts (a ++ b) =
      List.zipWith (fun m n => (m.1, m.2 + n.2)) (kindCounts a) (kindCounts b) := by
  simp [kindCounts, kindCount, DeclarationKind.all]

/-- Every unit is counted once. -/
theorem foldl_kindCounts (units : List UnitModel) :
    (kindCounts units).foldl (fun total entry => total + entry.2) 0 = units.length := by
  induction units with
  | nil => rfl
  | cons unit units ih =>
    simp only [kindCounts, kindCount, DeclarationKind.all, List.map_cons, List.map_nil,
      List.foldl_cons, List.foldl_nil, List.countP_cons, List.length_cons] at ih ⊢
    cases unit.kind <;> simp <;> omega

/-- **Aggregates compose.**  What the units of two lists may throw is what those of the first may throw,
followed by what is new in that of the second.  The list has no name twice, it has the names that some
method of some unit lists, and a name stands before another just if it is mentioned before the other is.
The counts of the kinds of units are added, and they add up to the number of units. -/
theorem aggregates_append :
    (∀ a b, exceptionTypes (a ++ b) =
      exceptionTypes a ++ (exceptionTypes b).filter (· ∉ exceptionTypes a)) ∧
    (∀ units, (exceptionTypes units).Nodup ∧
      (∀ name, name ∈ exceptionTypes units ↔
        ∃ unit ∈ units, ∃ method ∈ unit.methods, name ∈ method.exceptions) ∧
      (exceptionTypes units).Pairwise fun first second =>
        ∃ mention, MentionedAt units mention first ∧
          ∀ other, MentionedAt units other second → mention.Before other) ∧
    (∀ a b, kindCounts (a ++ b) =
      List.zipWith (fun m n => (m.1, m.2 + n.2)) (kindCounts a) (kindCounts b)) ∧
    ∀ units, (kindCounts units).map (·.1) = DeclarationKind.all ∧
      (kindCounts units).foldl (fun total entry => total + entry.2) 0 = units.length := by
  refine ⟨exceptionTypes_append, fun units => ⟨nodup_newNames, fun name => ?_, ?_⟩,
    kindCounts_append, fun units => ⟨rfl, foldl_kindCounts units⟩⟩
  · simp [exceptionTypes, mem_newNames]
  · simp only [← mem_mentions, exceptionTypes_eq]
    exact pairwise_newNames (pairwise_mentions units)

end SourceDoc.Summary
