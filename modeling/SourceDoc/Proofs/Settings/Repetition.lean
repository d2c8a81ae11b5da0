import SourceDoc.Proofs.Settings.Validity

/-!
# Loading settings again

To load settings adds to the environment what the nearest file offers and the environment takes
(`Workspace.gained`), and nothing else.  What was added is not offered a second time (`offers_gained`), so
to load again gives the same, unless the environment refused a variable whose value then turns out
different (`loadSettings_again`).
-/

namespace SourceDoc

open SourceDoc.Text VariableFile

namespace Workspace

/-! ### What the nearest file offers -/

/-- The variables that the nearest file offers to the environment. -/
def offers (ws : Workspace) : List (String × String) :=
  match ws.entries with
  | .error _ => []
  | .ok entries => offered ws.environment (resolve ws.environment entries)

/-- The workspace with the variables that the environment takes. -/
def gained (ws : Workspace) : Workspace :=
  { ws with environment := ws.environment ++ ws.offers.takeWhile isTaken }

/-- The name of the first variable that the environment refuses, and why. -/
def refused? (ws : Workspace) : Option (String × SettingsFault) :=
  ws.offers.findSome? fun v => (refusal? v).map (v.1, ·)

/-- A variable is given a value by an entry of the nearest file. -/
def Assigns (ws : Workspace) (name : String) : Prop :=
  ∃ entries value, ws.entries = .ok entries ∧ (name, some value) ∈ entries

variable {ws : Workspace}

theorem gained_eq_self (h : ws.offers.takeWhile isTaken = []) : ws.gained = ws := by
  simp [gained, h]

theorem offers_of_unread {fault : SettingsFault} (h : ws.entries = .error fault) : ws.offers = [] := by
  simp [offers, h]

theorem offers_of_entries {entries : List Entry} (h : ws.entries = .ok entries) :
    ws.offers = offered ws.environment (resolve ws.environment entries) := by
  simp [offers, h]

theorem nodup_map_fst_offers (ws : Workspace) : (ws.offers.map Prod.fst).Nodup := by
  cases h : ws.entries with
  | error fault => simp [offers_of_unread h]
  | ok entries =>
    rw [offers_of_entries h]
    exact nodup_map_fst_offered (nodup_names_resolve _ _) _

theorem assigns_of_mem_offers {v : String × String} (h : v ∈ ws.offers) : ws.Assigns v.1 := by
  cases hentries : ws.entries with
  | error fault => simp [offers_of_unread hentries] at h
  | ok entries =>
    rw [offers_of_entries hentries] at h
    obtain ⟨value, hvalue⟩ := exists_mem_of_mem_resolve (mem_offered.1 h).1
    exact ⟨entries, value, hentries, hvalue⟩

/-! ### The variable that is refused -/

/-- The variable that is refused is the first that is not taken. -/
theorem refused?_eq (ws : Workspace) :
    ws.refused? = (ws.offers.dropWhile isTaken).head?.bind fun v => (refusal? v).map (v.1, ·) := by
  unfold refused?
  induction ws.offers with
  | nil => rfl
  | cons v rest ih =>
    cases h : refusal? v with
    | none => simpa [isTaken, h] using ih
    | some fault => simp [isTaken, h]

theorem refused?_eq_none_iff : ws.refused? = none ↔ ws.offers.dropWhile isTaken = [] := by
  rw [refused?_eq]
  constructor
  · intro h
    by_contra hne
    have hhead := List.head_dropWhile_not isTaken hne
    rw [List.head?_eq_some_head hne] at h
    simp_all [isTaken]
  · intro h
    simp [h]

theorem refused?_eq_some_iff {name : String} {fault : SettingsFault} :
    ws.refused? = some (name, fault) ↔
      ∃ value rest, ws.offers.dropWhile isTaken = (name, value) :: rest ∧
        refusal? (name, value) = some fault := by
  rw [refused?_eq]
  cases ws.offers.dropWhile isTaken with
  | nil => simp
  | cons v rest =>
    obtain ⟨key, value⟩ := v
    simp only [List.head?_cons, Option.bind_some, Option.map_eq_some_iff, Prod.mk.injEq, List.cons.injEq]
    constructor
    · rintro ⟨_, h, rfl, rfl⟩
      exact ⟨value, rest, ⟨⟨rfl, rfl⟩, rfl⟩, h⟩
    · rintro ⟨_, _, ⟨⟨rfl, rfl⟩, rfl⟩, h⟩
      exact ⟨fault, h, rfl, rfl⟩

theorem findSome?_refusal?_offers (ws : Workspace) :
    ws.offers.findSome? refusal? = ws.refused?.map Prod.snd := by
  unfold refused?
  rw [List.map_findSome?]
  congr 1
  ext1 v
  cases h : refusal? v <;> simp [h]

/-! ### The first load -/

theorem withVariables_of_unread {fault : SettingsFault} (h : ws.entries = .error fault) :
    ws.withVariables = (ws, .error fault) := by
  simp [withVariables, h]

theorem withVariables_of_entries {entries : List Entry} (h : ws.entries = .ok entries) :
    ws.withVariables = (ws.gained, outcomeOf (ws.refused?.map Prod.snd)) := by
  simp only [withVariables, h, addVariables_eq (nodup_names_resolve _ _), ← offers_of_entries h,
    findSome?_refusal?_offers]
  rfl

theorem loadSettings_of_unread {fault : SettingsFault} (h : ws.entries = .error fault) :
    loadSettings ws = (ws, .error fault) := by
  simp [loadSettings, withVariables_of_unread h, Except.bind]

theorem entries_of_refused {refusal : String × SettingsFault} (h : ws.refused? = some refusal) :
    ∃ entries, ws.entries = .ok entries := by
  cases hentries : ws.entries with
  | error fault => simp [refused?, offers_of_unread hentries] at h
  | ok entries => exact ⟨entries, rfl⟩

theorem loadSettings_of_refused {name : String} {fault : SettingsFault}
    (h : ws.refused? = some (name, fault)) : loadSettings ws = (ws.gained, .error fault) := by
  obtain ⟨entries, hentries⟩ := entries_of_refused h
  simp [loadSettings, withVariables_of_entries hentries, h, outcomeOf, Except.bind]

theorem loadSettings_of_taken {entries : List Entry} (hentries : ws.entries = .ok entries)
    (h : ws.refused? = none) :
    loadSettings ws = (ws.gained, Settings.ofEnvironment ws.gained.codecs ws.gained.environment) := by
  simp [loadSettings, withVariables_of_entries hentries, h, outcomeOf, Except.bind]

theorem fst_loadSettings (ws : Workspace) : (loadSettings ws).1 = ws.gained := by
  cases hentries : ws.entries with
  | error fault =>
    have hnothing : ws.gained = ws := gained_eq_self (by simp [offers_of_unread hentries])
    rw [loadSettings_of_unread hentries, hnothing]
  | ok entries => simp [loadSettings, withVariables_of_entries hentries]

/-! ### The second load -/

/-- The file is the same, unless a variable that was added switches it off. -/
theorem entries_gained (ws : Workspace) :
    ws.gained.entries = ws.entries ∨ ws.gained.entries = .ok [] := by
  by_cases hoff : isSwitchedOff ws.gained.environment = true
  · right
    simp [entries, hoff]
  · left
    by_cases hbefore : isSwitchedOff ws.environment = true
    · -- Nothing is added then.
      have hentries : ws.entries = .ok [] := by simp [entries, hbefore]
      have hoffers : ws.offers = [] := offers_of_entries hentries
      rw [gained_eq_self (by simp [hoffers])]
    · have hpath : ws.gained.variablesPath? = ws.variablesPath? := rfl
      have hbytes : ws.gained.variablesAt = ws.variablesAt := rfl
      simp [entries, hoff, hbefore, hpath, hbytes]

theorem exists_entries_gained {entries : List Entry} (h : ws.entries = .ok entries) :
    ∃ again, ws.gained.entries = .ok again := by
  rcases entries_gained ws with hsame | hnone
  · exact ⟨entries, hsame.trans h⟩
  · exact ⟨[], hnone⟩

/-- **What was added is not offered again.**  The others are, in the same order, unless the file is switched
off by then. -/
theorem offers_gained (ws : Workspace) :
    ws.gained.offers = [] ∨
      ws.gained.offers.map Prod.fst = (ws.offers.dropWhile isTaken).map Prod.fst := by
  cases hentries : ws.entries with
  | error fault =>
    left
    have hoffers := offers_of_unread hentries
    rw [gained_eq_self (by simp [hoffers]), hoffers]
  | ok entries =>
    rcases entries_gained ws with hsame | hnone
    · right
      rw [offers_of_entries (hsame.trans hentries), offers_of_entries hentries]
      have hshape : shape (resolve ws.gained.environment entries) =
          shape (resolve ws.environment entries) := by
        rw [shape_resolve, shape_resolve]
      have hagain := map_fst_offered_again (nodup_names_resolve ws.environment entries) hshape
        ws.environment
      rwa [← offers_of_entries hentries] at hagain ⊢
    · left
      exact offers_of_entries hnone

theorem loadSettings_gained_of_taken (h : ws.refused? = none) :
    loadSettings ws.gained = loadSettings ws := by
  cases hentries : ws.entries with
  | error fault => rw [gained_eq_self (by simp [offers_of_unread hentries])]
  | ok entries =>
    have hoffers : ws.gained.offers = [] := by
      rcases offers_gained ws with hnone | hsame
      · exact hnone
      · rw [refused?_eq_none_iff.1 h] at hsame
        simpa using hsame
    obtain ⟨again, hagain⟩ := exists_entries_gained hentries
    rw [loadSettings_of_taken hentries h,
      loadSettings_of_taken hagain (by simp [refused?, hoffers]), gained_eq_self (by simp [hoffers])]

/-- The fault of a variable that is refused is none of the settings themselves, which would report a
variable. -/
theorem ofEnvironment_ne_refusal {v : String × String} {fault : SettingsFault}
    (h : refusal? v = some fault) (codecs : Codecs) (environment : Environment) :
    Settings.ofEnvironment codecs environment ≠ .error fault := by
  intro hfault
  obtain ⟨-, u, -, -, -, -, hreports⟩ := Settings.exists_first_of_ofEnvironment hfault
  exact (ofFile_of_refusal? h).not_leads u hreports.2

/-- What was refused is offered first the next time, if anything is. -/
theorem map_fst_offers_gained_of_refused {name : String} {fault : SettingsFault}
    (h : ws.refused? = some (name, fault)) (hoffers : ws.gained.offers ≠ []) :
    ∃ names, ws.gained.offers.map Prod.fst = name :: names := by
  obtain ⟨value, rest, hdrop, -⟩ := refused?_eq_some_iff.1 h
  rcases offers_gained ws with hnone | hsame
  · exact absurd hnone hoffers
  · exact ⟨rest.map Prod.fst, by rw [hsame, hdrop, List.map_cons]⟩

/-- Nothing is added by the second load if what was refused is refused again. -/
theorem takeWhile_offers_gained {name : String} {fault cause : SettingsFault}
    (h : ws.refused? = some (name, fault)) (hagain : ws.gained.refused? = some (name, cause)) :
    ws.gained.offers.takeWhile isTaken = [] := by
  obtain ⟨value, rest, hdrop, -⟩ := refused?_eq_some_iff.1 hagain
  have hnodup := nodup_map_fst_offers ws.gained
  cases hoffers : ws.gained.offers with
  | nil => rfl
  | cons v others =>
    obtain ⟨names, hnames⟩ := map_fst_offers_gained_of_refused h (by simp [hoffers])
    rw [hoffers] at hnodup hnames hdrop
    cases htaken : isTaken v with
    | false => simp [htaken]
    | true =>
      -- Otherwise another variable with the same name would come later.
      have hname : v.1 = name := (List.cons.inj hnames).1
      have hlater : (name, value) ∈ others := by
        rw [List.dropWhile_cons_of_pos htaken] at hdrop
        exact (List.dropWhile_sublist isTaken).subset (hdrop ▸ List.mem_cons_self)
      have hmem : v.1 ∈ others.map Prod.fst := hname ▸ List.mem_map_of_mem hlater
      exact absurd hmem (List.nodup_cons.1 hnodup).1

/-- If a variable was refused, the second load gives the same exactly if it is refused again for the same
reason. -/
theorem loadSettings_gained_iff {name : String} {fault : SettingsFault}
    (h : ws.refused? = some (name, fault)) :
    loadSettings ws.gained = loadSettings ws ↔ ws.gained.refused? = some (name, fault) := by
  rw [loadSettings_of_refused h]
  constructor
  · intro hload
    cases hagain : ws.gained.refused? with
    | none =>
      obtain ⟨entries, hentries⟩ := entries_of_refused h
      obtain ⟨again, hentries⟩ := exists_entries_gained hentries
      obtain ⟨value, rest, -, hrefusal⟩ := refused?_eq_some_iff.1 h
      rw [loadSettings_of_taken hentries hagain] at hload
      exact absurd (congrArg Prod.snd hload) (ofEnvironment_ne_refusal hrefusal _ _)
    | some refusal =>
      obtain ⟨key, cause⟩ := refusal
      rw [loadSettings_of_refused hagain] at hload
      obtain ⟨hgained, hcause⟩ := Prod.mk.inj hload
      have htaken : ws.gained.offers.takeWhile isTaken = [] := by
        simpa [gained] using congrArg environment hgained
      have hoffers := List.takeWhile_append_dropWhile (p := isTaken) (l := ws.gained.offers)
      obtain ⟨value, rest, hdrop, -⟩ := refused?_eq_some_iff.1 hagain
      rw [htaken, hdrop, List.nil_append] at hoffers
      obtain ⟨names, hnames⟩ := map_fst_offers_gained_of_refused h (by simp [← hoffers])
      rw [← hoffers, List.map_cons] at hnames
      have hkey : key = name := (List.cons.inj hnames).1
      rw [hkey, Except.error.inj hcause]
  · intro hagain
    rw [loadSettings_of_refused hagain, gained_eq_self (takeWhile_offers_gained h hagain)]

end Workspace

/-! ### Environments before and after -/

open Workspace

/-- **Loading adds variables of the file and is the same the second time, unless a variable is refused.**
Whatever the settings are, the files and the variables that are there stay as they are, and those that are
added come from entries of the file.  If none is refused, all are added that are not there yet, and to load
again gives the same and adds nothing.  Otherwise the load stops at the one that is refused, and to load
again gives the same exactly if that one is refused again for the same reason. -/
theorem loadSettings_again (ws : Workspace) :
    (loadSettings ws).1 =
        { ws with environment := ws.environment ++ ws.offers.takeWhile isTaken } ∧
    (∀ name value, NameMap.get? ws.environment name = some value →
      NameMap.get? (loadSettings ws).1.environment name = some value) ∧
    (∀ name, NameMap.get? ws.environment name = none →
      NameMap.get? (loadSettings ws).1.environment name ≠ none → ws.Assigns name) ∧
    (ws.refused? = none →
      (loadSettings ws).1.environment = ws.environment ++ ws.offers ∧
        loadSettings (loadSettings ws).1 = loadSettings ws) ∧
    ∀ name fault, ws.refused? = some (name, fault) →
      (loadSettings ws).2 = .error fault ∧
        (loadSettings (loadSettings ws).1 = loadSettings ws ↔
          (loadSettings ws).1.refused? = some (name, fault)) := by
  rw [fst_loadSettings]
  refine ⟨rfl, ?_, ?_, ?_, ?_⟩
  · intro name value hvalue
    simp [gained, NameMap.get?_append, hvalue]
  · intro name hnone hadded
    rw [gained, NameMap.get?_append, hnone, Option.none_or] at hadded
    obtain ⟨value, hvalue⟩ := Option.ne_none_iff_exists'.1 hadded
    have hmem := (List.takeWhile_sublist isTaken).subset (NameMap.mem_of_get?_eq_some hvalue)
    exact assigns_of_mem_offers hmem
  · intro hnone
    refine ⟨?_, loadSettings_gained_of_taken hnone⟩
    have hoffers := List.takeWhile_append_dropWhile (p := isTaken) (l := ws.offers)
    rw [refused?_eq_none_iff.1 hnone, List.append_nil] at hoffers
    simp [gained, hoffers]
  · intro name fault hrefused
    exact ⟨by rw [loadSettings_of_refused hrefused], loadSettings_gained_iff hrefused⟩

/-- A file that sets a variable twice, refers to variables before and after they are set, and names one
without a value. -/
def repeatedVariables : Workspace :=
  FileTree.workspace ⟨[(["home", ".env"],
    .file ("A=1\nB=$\x7bA\x7d$\x7bC:-x\x7d\nA=2\nC=$\x7bB\x7d\nD\n" ++
      "PARSE_CORE_MAX_WORKERS=$\x7bA\x7d\n").toUTF8.toList)]⟩ ["home", "work"] [("C", "")]

theorem loadSettings_again_repeatedVariables :
    repeatedVariables.refused? = none ∧
      repeatedVariables.offers = [("A", "2"), ("B", "1"), ("PARSE_CORE_MAX_WORKERS", "2")] ∧
      loadSettings (loadSettings repeatedVariables).1 = loadSettings repeatedVariables := by
  have hnone : repeatedVariables.refused? = none := by decide +kernel
  exact ⟨hnone, by decide +kernel, ((loadSettings_again repeatedVariables).2.2.2.1 hnone).2⟩

/-- A file with a variable that is refused, a variable that refers to it, and another value of the first. -/
def refusedVariable : Workspace :=
  FileTree.workspace ⟨[([".env"], .file "A=\x00\nB=$\x7bA\x7d\nA=x\n".toUTF8.toList)]⟩ [] []

/-- **The second load need not be the same as the first** if a variable is refused. -/
theorem loadSettings_refusedVariable :
    (loadSettings refusedVariable).2 = .error .nullInVariable ∧
      (loadSettings (loadSettings refusedVariable).1).2 = .ok {} := by
  decide +kernel

end SourceDoc
