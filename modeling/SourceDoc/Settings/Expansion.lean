import SourceDoc.NameMap
import SourceDoc.Settings.VariableFile

/-!
# References between variables

A value may refer to variables by `${NAME}`, or by `${NAME:-default}` with a text for the case that
there is no such variable.  The environment comes first, then the variables set before.
-/

namespace SourceDoc.VariableFile

/-- A reference to a variable. -/
structure Reference where
  /-- The name of the variable. -/
  name : String
  /-- The text for the case that there is no such variable. -/
  fallback : String
  deriving DecidableEq, Repr

/-- The text behind the brace that closes a reference. -/
def closeReference? : List Char → Option (List Char)
  | '}' :: after => some after
  | _ => none

/-- The rest of a reference behind its dollar sign, and what follows it. -/
def reference? (text : List Char) : Option (Reference × List Char) :=
  match text with
  | '{' :: rest =>
    let name := String.ofList (rest.takeWhile fun c => c != '}' && c != ':')
    match rest.dropWhile fun c => c != '}' && c != ':' with
    | ':' :: '-' :: rest =>
      let fallback := String.ofList (rest.takeWhile (· != '}'))
      (closeReference? (rest.dropWhile (· != '}'))).map (⟨name, fallback⟩, ·)
    | rest => (closeReference? rest).map (⟨name, ""⟩, ·)
  | _ => none

/-- What follows a closing brace is shorter. -/
theorem length_closeReference? {text after : List Char} (h : closeReference? text = some after) :
    after.length < text.length := by
  unfold closeReference? at h
  split at h <;> simp_all

/-- Dropping characters makes no text longer. -/
theorem length_dropWhile_le (p : Char → Bool) (text : List Char) :
    (text.dropWhile p).length ≤ text.length :=
  (List.dropWhile_sublist p).length_le

/-- What follows a reference is shorter. -/
theorem length_reference? {text after : List Char} {r : Reference}
    (h : reference? text = some (r, after)) : after.length < text.length := by
  unfold reference? at h
  split at h
  · rename_i rest
    have hle := length_dropWhile_le (fun c => c != '}' && c != ':') rest
    dsimp only at h
    split at h
    · rename_i tail heq
      simp only [Option.map_eq_some_iff, Prod.mk.injEq] at h
      obtain ⟨a, ha, _, rfl⟩ := h
      have hlt := length_closeReference? ha
      have hdrop := length_dropWhile_le (fun c => c != '}') tail
      rw [heq] at hle
      simp only [List.length_cons] at hle ⊢
      omega
    · simp only [Option.map_eq_some_iff, Prod.mk.injEq] at h
      obtain ⟨a, ha, _, rfl⟩ := h
      have hlt := length_closeReference? ha
      simp only [List.length_cons]
      omega
  · simp at h

/-- The text with its references replaced by what they refer to. -/
def expand (valueOf : Reference → String) (text : List Char) : List Char :=
  match text with
  | [] => []
  | c :: rest =>
    if c = '$' then
      match _h : reference? rest with
      | some (r, after) => (valueOf r).toList ++ expand valueOf after
      | none => c :: expand valueOf rest
    else c :: expand valueOf rest
termination_by text.length
decreasing_by
  · have := length_reference? _h
    simp only [List.length_cons]; omega
  · simp
  · simp

/-- The value of a reference: from the environment, from the variables set before, or its own text
if there is no such variable.  A variable without value counts as empty. -/
def Reference.value (environment : Environment) (earlier : List Entry) (r : Reference) : String :=
  match NameMap.get? environment r.name with
  | some value => value
  | none =>
    match NameMap.get? earlier r.name with
    | some value => value.getD ""
    | none => r.fallback

/-- The variables that entries set, each once, with their references replaced; `earlier` are those
set before.  Of several entries with one name the last counts, at the place of the first. -/
def resolveFrom (environment : Environment) (earlier : List Entry) : List Entry → List Entry
  | [] => earlier
  | (name, value) :: rest =>
    let value := value.map fun v =>
      String.ofList (expand (Reference.value environment earlier) v.toList)
    resolveFrom environment (NameMap.set name value earlier) rest

/-- The variables that entries set. -/
def resolve (environment : Environment) (entries : List Entry) : List Entry :=
  resolveFrom environment [] entries

end SourceDoc.VariableFile
