import Mathlib.Data.List.Nodup
import SourceDoc.NameMap

/-!
# Names and values of maps

Which names a map has, and what is found under a name (`get?_set`, `get?_append`).  A name that was set has
one place only (`nodup_names_ofEntries`), and every value comes from an entry (`mem_of_mem_ofEntries`).
-/

namespace SourceDoc.NameMap

variable {κ α β : Type} [DecidableEq κ]

/-! ### Names -/

theorem mem_names_set {name key : κ} {value : α} {map : NameMap κ α} :
    name ∈ names (set key value map) ↔ name = key ∨ name ∈ names map := by
  induction map with
  | nil => exact List.mem_cons
  | cons entry rest ih =>
    rw [set]
    by_cases hkey : entry.1 = key
    · rw [if_pos hkey, names, List.map_cons, List.mem_cons, names, List.map_cons, List.mem_cons, hkey]
      exact ⟨.inr, fun h => h.elim .inl id⟩
    · rw [if_neg hkey, names, List.map_cons, List.mem_cons, ← names, ih, names, names, List.map_cons,
        List.mem_cons]
      exact or_left_comm

/-- The names of a map are those that were set. -/
theorem mem_names_ofEntries {name : κ} {entries : List (κ × α)} :
    name ∈ names (ofEntries entries) ↔ name ∈ entries.map (·.1) := by
  have hfold : ∀ map : NameMap κ α,
      name ∈ names (entries.foldl (fun map entry => set entry.1 entry.2 map) map) ↔
        name ∈ names map ∨ name ∈ entries.map (·.1) := by
    induction entries with
    | nil => exact fun map => (or_iff_left List.not_mem_nil).symm
    | cons entry rest ih =>
      intro map
      rw [List.foldl_cons, ih, mem_names_set, List.map_cons, List.mem_cons, or_comm (a := name = _),
        or_assoc]
  exact (hfold []).trans (or_iff_right List.not_mem_nil)

theorem nodup_names_set {name : κ} {value : α} {map : NameMap κ α} (h : (names map).Nodup) :
    (names (set name value map)).Nodup := by
  induction map with
  | nil => simp [set, names]
  | cons entry rest ih =>
    obtain ⟨hentry, hrest⟩ := List.nodup_cons.1 h
    unfold set
    split_ifs with hname
    · rw [← hname]
      exact h
    · apply List.nodup_cons.2
      refine ⟨?_, ih hrest⟩
      show entry.1 ∉ names (set name value rest)
      rw [mem_names_set]
      exact not_or.2 ⟨hname, hentry⟩

/-- Every name of a map that was made from entries has one place. -/
theorem nodup_names_ofEntries (entries : List (κ × α)) : (names (ofEntries entries)).Nodup := by
  have hfold : ∀ map : NameMap κ α, (names map).Nodup →
      (names (entries.foldl (fun map entry => set entry.1 entry.2 map) map)).Nodup := by
    induction entries with
    | nil => exact fun map h => h
    | cons entry rest ih => exact fun map h => ih _ (nodup_names_set h)
  exact hfold [] List.nodup_nil

/-! ### Values -/

theorem get?_cons (entry : κ × α) (map : NameMap κ α) (name : κ) :
    get? (entry :: map) name = if entry.1 = name then some entry.2 else get? map name := by
  unfold get?
  split_ifs with h <;> simp [h]

theorem get?_append (map more : NameMap κ α) (name : κ) :
    get? (map ++ more) name = (get? map name).or (get? more name) := by
  induction map with
  | nil => simp [get?]
  | cons entry rest ih =>
    rw [List.cons_append, get?_cons, get?_cons, ih]
    split_ifs <;> simp

theorem get?_eq_none_iff {map : NameMap κ α} {name : κ} : get? map name = none ↔ name ∉ names map := by
  induction map with
  | nil => simp [get?, names]
  | cons entry rest ih =>
    rw [get?_cons, names, List.map_cons, List.mem_cons, ← names]
    split_ifs with hname
    · simp [hname]
    · simp [ih, Ne.symm hname]

theorem mem_of_get?_eq_some {map : NameMap κ α} {name : κ} {value : α}
    (h : get? map name = some value) : (name, value) ∈ map := by
  induction map with
  | nil => simp [get?] at h
  | cons entry rest ih =>
    rw [get?_cons] at h
    split_ifs at h with hname
    · rw [← hname, ← Option.some.inj h]
      exact List.mem_cons_self
    · exact List.mem_cons_of_mem entry (ih h)

/-- A new name is put at the end. -/
theorem set_of_get?_eq_none {name : κ} {map : NameMap κ α} (h : get? map name = none) (value : α) :
    set name value map = map ++ [(name, value)] := by
  induction map with
  | nil => rfl
  | cons entry rest ih =>
    rw [get?_cons] at h
    split_ifs at h with hname
    rw [set, if_neg hname, ih h, List.cons_append]

/-- Values are set as their images are. -/
theorem map_set (f : α → β) (name : κ) (value : α) (map : NameMap κ α) :
    (set name value map).map (Prod.map id f) = set name (f value) (map.map (Prod.map id f)) := by
  induction map with
  | nil => rfl
  | cons entry rest ih =>
    simp only [set, List.map_cons, Prod.map_fst, id_eq]
    split_ifs <;> simp [ih]

theorem mem_set {name : κ} {value : α} {map : NameMap κ α} {entry : κ × α}
    (h : entry ∈ set name value map) : entry = (name, value) ∨ entry ∈ map := by
  fun_induction set name value map <;> grind

/-- A map has no values but those that were set. -/
theorem mem_of_mem_ofEntries {entries : List (κ × α)} {entry : κ × α}
    (h : entry ∈ ofEntries entries) : entry ∈ entries := by
  have hfold : ∀ map : NameMap κ α,
      entry ∈ entries.foldl (fun map entry => set entry.1 entry.2 map) map →
        entry ∈ map ∨ entry ∈ entries := by
    clear h
    induction entries with
    | nil => exact fun map h => .inl h
    | cons first rest ih =>
      intro map h
      rcases ih _ h with h | h
      · rcases mem_set h with rfl | h
        · exact .inr List.mem_cons_self
        · exact .inl h
      · exact .inr (List.mem_cons_of_mem first h)
  simpa using hfold [] h

end SourceDoc.NameMap
