/-!
# Maps from names

Entries are kept in the order in which their names were first set; setting a name again replaces the
value and keeps the place.
-/

namespace SourceDoc

/-- A map from names of one type to values of another. -/
abbrev NameMap (κ α : Type) := List (κ × α)

namespace NameMap

variable {κ α : Type} [DecidableEq κ]

/-- The map with the value of a name set. -/
def set (name : κ) (value : α) : NameMap κ α → NameMap κ α
  | [] => [(name, value)]
  | entry :: rest =>
    if entry.1 = name then (name, value) :: rest else entry :: NameMap.set name value rest

/-- The value of a name. -/
def get? (map : NameMap κ α) (name : κ) : Option α :=
  (map.find? (·.1 == name)).map (·.2)

/-- The map without a name. -/
def erase (map : NameMap κ α) (name : κ) : NameMap κ α :=
  map.filter (·.1 != name)

/-- The map that results from setting names one after the other. -/
def ofEntries (entries : List (κ × α)) : NameMap κ α :=
  entries.foldl (fun map entry => NameMap.set entry.1 entry.2 map) []

/-- The names of a map. -/
def names (map : NameMap κ α) : List κ := map.map (·.1)

end NameMap

/-- The variables of an environment. -/
abbrev Environment := NameMap String String

end SourceDoc
