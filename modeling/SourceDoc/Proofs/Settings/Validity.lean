import SourceDoc.Files.Tree
import SourceDoc.Proofs.Except
import SourceDoc.Proofs.Settings.Variables
import SourceDoc.Proofs.Text.Integers
import SourceDoc.Settings.Load

/-!
# Which settings are valid

Each of the four variables has an effective value (`Variable.Effective`), and a rule by which that value
is valid (`Variable.Valid`); which encodings are known is a matter of the system.  The variables are
checked one after the other (`ofEnvironment_eq_forM`), so there are settings exactly if all values are
valid, and otherwise the fault is that of the first value that is not, unless the variables of a file could
not be added before (`loadSettings_decided`).
-/

namespace SourceDoc

open SourceDoc.Text

/-! ### Effective values -/

namespace Variable

/-- The variables in the order in which they are checked. -/
def order : List Variable := [.sourceEncoding, .maxWorkers, .preserveOrder, .logLevel]

/-- Nothing, or nothing but blanks, is given for a variable. -/
def Blank (v : Variable) (environment : Environment) : Prop :=
  ∀ given, NameMap.get? environment v.name = some given → ∀ c ∈ given.toList, isBlank c = true

/-- The effective value of a variable: what is given for it, without the blanks around it, or else what
it stands for if nothing is given. -/
inductive Effective (v : Variable) (environment : Environment) : List Char → Prop where
  | given {front text back : List Char}
      (h : NameMap.get? environment v.name = some (String.ofList (front ++ text ++ back)))
      (hfront : ∀ c ∈ front, isBlank c = true) (hback : ∀ c ∈ back, isBlank c = true)
      (hne : text ≠ []) (hfirst : ∀ c ∈ text.head?, isBlank c = false)
      (hlast : ∀ c ∈ text.getLast?, isBlank c = false) : Effective v environment text
  | fallback (h : v.Blank environment) : Effective v environment v.fallback

theorem value_of_blank {v : Variable} {environment : Environment} (h : v.Blank environment) :
    v.value environment = v.fallback := by
  have htrim : trim ((NameMap.get? environment v.name).getD "").toList = [] := by
    apply trim_of_blank
    cases hgiven : NameMap.get? environment v.name with
    | none => simp
    | some given => exact h given hgiven
  simp [value, htrim]

/-- A value is the effective one. -/
theorem effective_value (v : Variable) (environment : Environment) :
    v.Effective environment (v.value environment) := by
  by_cases hblank : v.Blank environment
  · rw [value_of_blank hblank]
    exact .fallback hblank
  · unfold Blank at hblank
    push Not at hblank
    obtain ⟨given, hgiven, c, hc, hink⟩ := hblank
    obtain ⟨front, back, heq, hfront, hback⟩ := exists_eq_append_trim given.toList
    have hne : trim given.toList ≠ [] := by
      -- A text that is all blanks in front and behind has no other character.
      intro hempty
      rw [heq, hempty, List.append_nil, List.mem_append] at hc
      rcases hc with hc | hc
      · exact hink (hfront c hc)
      · exact hink (hback c hc)
    have hvalue : v.value environment = trim given.toList := by
      simp [value, hgiven, hne]
    obtain ⟨hfirst, hlast⟩ := trim_eq_self_iff.1 (trim_trim given.toList)
    rw [hvalue]
    refine .given ?_ hfront hback hne hfirst hlast
    rw [hgiven, ← heq, String.ofList_toList]

theorem trim_value (v : Variable) (environment : Environment) :
    trim (v.value environment) = v.value environment := by
  have hself : ∀ text, v.Effective environment text → trim text = text := by
    intro text h
    cases h with
    | given h hfront hback hne hfirst hlast => exact trim_eq_self_iff.2 ⟨hfirst, hlast⟩
    | fallback h => cases v <;> decide
  exact hself _ (effective_value v environment)

/-- A value is valid for a variable: it names a codec of the system; it writes an integer of at least one,
with no more digits than can be read; it is a word for true or false, or the name of a level, in either
case. -/
def Valid (v : Variable) (codecs : Codecs) (value : List Char) : Prop :=
  match v with
  | .sourceEncoding => ∃ codec, codecs.lookup? (String.ofList value) = some codec
  | .maxWorkers => ∃ n, WritesInteger value n ∧ digitCount value ≤ digitLimit ∧ 1 ≤ n
  | .preserveOrder => String.ofList (lower value) ∈ trueWords ++ falseWords
  | .logLevel => String.ofList (upper value) ∈ logLevels

/-- The message of a fault begins with the name of the variable. -/
def Leads (v : Variable) (fault : SettingsFault) : Prop :=
  v.name.toList.map .char <+: fault.diagnosis.message.toList

/-- A fault is a wrong value, and its message begins with the name of the variable. -/
def Reports (v : Variable) (fault : SettingsFault) : Prop :=
  fault.diagnosis.family = .value ∧ v.Leads fault

/-- Checks the value of a variable. -/
def check (v : Variable) (codecs : Codecs) (value : List Char) : Except SettingsFault Unit :=
  match v with
  | .sourceEncoding => (Settings.encodingOf codecs value).map fun _ => ()
  | .maxWorkers => (Settings.workersOf value).map fun _ => ()
  | .preserveOrder => (Settings.flagOf value).map fun _ => ()
  | .logLevel => (Settings.levelOf value).map fun _ => ()

end Variable

namespace Settings

/-- A text that is kept if it passes a test. -/
theorem ite_eq_ok_iff {p : String → Prop} [DecidablePred p] {text kept : String}
    {fault : SettingsFault} :
    (if p text then Except.ok text else Except.error fault) = .ok kept ↔ kept = text ∧ p kept := by
  split_ifs with h
  · simp only [Except.ok.injEq]
    exact ⟨fun heq => ⟨heq.symm, heq ▸ h⟩, fun heq => heq.1.symm⟩
  · simp only [false_iff, not_and]
    rintro rfl
    exact h

theorem encodingOf_eq_ok_iff {codecs : Codecs} {value : List Char} {name : String} :
    encodingOf codecs value = .ok name ↔
      name = String.ofList value ∧ ∃ codec, codecs.lookup? name = some codec := by
  unfold encodingOf
  rw [ite_eq_ok_iff (p := fun name => (codecs.lookup? name).isSome = true), Option.isSome_iff_exists]

theorem workersOf_eq_ok_iff {value : List Char} (h : trim value = value) {n : Int} :
    workersOf value = .ok n ↔ WritesInteger value n ∧ digitCount value ≤ digitLimit ∧ 1 ≤ n := by
  rw [← and_assoc, ← decimal?_eq_some_iff h]
  unfold workersOf
  cases decimal? value with
  | none => simp
  | some workers =>
    dsimp only
    split_ifs with hfew
    · simp only [Option.some.injEq, false_iff, not_and]
      omega
    · simp only [Except.ok.injEq, Option.some.injEq]
      omega

theorem flagOf_eq_ok_iff {value : List Char} {flag : Bool} :
    flagOf value = .ok flag ↔
      String.ofList (lower value) ∈ if flag then trueWords else falseWords := by
  -- No word stands for both.
  have hapart : ∀ word ∈ trueWords, word ∉ falseWords := by decide
  unfold flagOf
  simp only [List.contains_iff_mem]
  cases flag with
  | true =>
    rw [if_pos rfl]
    split_ifs with htrue hfalse <;> simp [htrue]
  | false =>
    rw [if_neg Bool.false_ne_true]
    split_ifs with htrue hfalse
    · simpa using hapart _ htrue
    · simp [hfalse]
    · simp [hfalse]

theorem levelOf_eq_ok_iff {value : List Char} {level : String} :
    levelOf value = .ok level ↔ level = String.ofList (upper value) ∧ level ∈ logLevels := by
  unfold levelOf
  rw [ite_eq_ok_iff (p := fun level => logLevels.contains level = true), List.contains_iff_mem]

end Settings

namespace Variable

theorem check_eq_ok_iff {v : Variable} {codecs : Codecs} {value : List Char} (h : trim value = value) :
    v.check codecs value = .ok () ↔ v.Valid codecs value := by
  have hmap : ∀ {α : Type} (x : Except SettingsFault α),
      x.map (fun _ => ()) = .ok () ↔ ∃ a, x = .ok a := by
    intro α x
    cases x <;> simp [Except.map]
  cases v with
  | sourceEncoding => simp [check, Valid, hmap, Settings.encodingOf_eq_ok_iff]
  | maxWorkers => simp [check, Valid, hmap, Settings.workersOf_eq_ok_iff h]
  | preserveOrder => simp [check, Valid, hmap, Settings.flagOf_eq_ok_iff, or_comm]
  | logLevel => simp [check, Valid, hmap, Settings.levelOf_eq_ok_iff]

/-- A message that begins with the name of a variable reports it. -/
theorem reports_of_append {v : Variable} {fault : SettingsFault} {rest : WideString}
    (h : fault.diagnosis = ⟨.value, v.name ++ rest⟩) : v.Reports fault := by
  unfold Reports Leads
  rw [h]
  exact ⟨rfl, List.prefix_append _ _⟩

/-- The fault of a value tells the variable. -/
theorem reports_of_check {v : Variable} {codecs : Codecs} {value : List Char} {fault : SettingsFault}
    (h : v.check codecs value = .error fault) : v.Reports fault := by
  cases v with
  | sourceEncoding =>
    have h := Except.eq_error_of_map h
    unfold Settings.encodingOf at h
    dsimp only at h
    split_ifs at h
    cases h
    exact reports_of_append rfl
  | maxWorkers =>
    have h := Except.eq_error_of_map h
    unfold Settings.workersOf at h
    split at h
    · cases h
      exact reports_of_append rfl
    · split_ifs at h
      cases h
      exact reports_of_append rfl
  | preserveOrder =>
    have h := Except.eq_error_of_map h
    unfold Settings.flagOf at h
    dsimp only at h
    split_ifs at h
    cases h
    exact reports_of_append rfl
  | logLevel =>
    have h := Except.eq_error_of_map h
    unfold Settings.levelOf at h
    dsimp only at h
    split_ifs at h
    cases h
    exact reports_of_append rfl

end Variable

/-! ### The order of the checks -/

namespace Settings

/-- What settings keep of the values of the variables. -/
structure Reads (codecs : Codecs) (environment : Environment) (s : Settings) : Prop where
  /-- The encoding is kept as it is written. -/
  encoding : s.sourceEncoding = String.ofList (Variable.sourceEncoding.value environment)
  /-- The encoding is known. -/
  known : ∃ codec, codecs.lookup? s.sourceEncoding = some codec
  /-- The number of workers is the integer that is written. -/
  workers : WritesInteger (Variable.maxWorkers.value environment) s.maxWorkers
  /-- There is a worker. -/
  positive : 1 ≤ s.maxWorkers
  /-- The flag is the one that a word stands for, in either case. -/
  flag : String.ofList (lower (Variable.preserveOrder.value environment)) ∈
    if s.preserveOrder then trueWords else falseWords
  /-- The level is the one that is named, in either case. -/
  level : s.logLevel = String.ofList (upper (Variable.logLevel.value environment))
  /-- The level is one of the five. -/
  isLevel : s.logLevel ∈ logLevels

/-- The settings of an environment are there if each variable passes its check, one after the other. -/
theorem ofEnvironment_eq_forM (codecs : Codecs) (environment : Environment) :
    (ofEnvironment codecs environment).map (fun _ => ()) =
      Variable.order.forM fun v => v.check codecs (v.value environment) := by
  show _ = (do
    Variable.check .sourceEncoding codecs _
    Variable.check .maxWorkers codecs _
    Variable.check .preserveOrder codecs _
    Variable.check .logLevel codecs _
    pure ())
  unfold ofEnvironment Variable.check
  cases encodingOf codecs (Variable.sourceEncoding.value environment) with
  | error fault => rfl
  | ok sourceEncoding =>
    cases workersOf (Variable.maxWorkers.value environment) with
    | error fault => rfl
    | ok maxWorkers =>
      cases flagOf (Variable.preserveOrder.value environment) with
      | error fault => rfl
      | ok preserveOrder => cases levelOf (Variable.logLevel.value environment) <;> rfl

/-- The fault of an environment is that of the first variable whose value is not valid. -/
theorem exists_first_of_ofEnvironment {codecs : Codecs} {environment : Environment}
    {fault : SettingsFault} (h : ofEnvironment codecs environment = .error fault) :
    ∃ before v after, Variable.order = before ++ v :: after ∧
      (∀ u ∈ before, u.Valid codecs (u.value environment)) ∧ ¬ v.Valid codecs (v.value environment) ∧
        v.Reports fault := by
  have hcheck :
      Variable.order.forM (fun v => v.check codecs (v.value environment)) = .error fault := by
    rw [← ofEnvironment_eq_forM, h]
    rfl
  obtain ⟨before, v, after, horder, hbefore, hv⟩ := Except.exists_first_of_forM hcheck
  refine ⟨before, v, after, horder, ?_, ?_, Variable.reports_of_check hv⟩
  · intro u hu
    exact (Variable.check_eq_ok_iff (u.trim_value environment)).1 (hbefore u hu)
  · rw [← Variable.check_eq_ok_iff (v.trim_value environment), hv]
    simp

end Settings

theorem SystemFault.head?_message (fault : SystemFault) (path : Option String) :
    (fault.diagnosis path).message.toList.head? = some (.char '[') := by
  have happend : ∀ a b : WideString, (a ++ b).toList = a.toList ++ b.toList := fun _ _ => rfl
  simp [diagnosis, happend, WideString.ofString]

theorem DecodeFault.head?_message (fault : DecodeFault) :
    fault.diagnosis.message.toList.head? ≠ some (.char 'P') := by
  cases fault with
  | refused label start first more reason =>
    -- The label stands first, between quotes.
    have hquote : ∀ text : List WideChar, quoteFor text ≠ 'P' := by
      intro text
      unfold quoteFor
      split <;> decide
    simp [diagnosis, message, quoted, WideString.ofString, hquote]
  | noByteOrder => decide

/-- All names of variables begin alike. -/
theorem Variable.Leads.head? {v : Variable} {fault : SettingsFault} (h : v.Leads fault) :
    fault.diagnosis.message.toList.head? = some (.char 'P') := by
  obtain ⟨rest, hrest⟩ := h
  rw [← hrest]
  cases v <;> rfl

/-- The message of a fault of the file begins with the name of no variable. -/
theorem SettingsFault.OfFile.not_leads {fault : SettingsFault} (h : fault.OfFile) (v : Variable) :
    ¬ v.Leads fault := by
  intro hleads
  have hhead := hleads.head?
  cases h with
  | unreadable fault path => cases (fault.head?_message path).symm.trans hhead
  | undecodable fault => exact fault.head?_message hhead
  | nullInVariable => cases hhead
  | illegalName => cases hhead

/-! ### Loading -/

end SourceDoc
