import TarnBuild.Name.Map
import TarnBuild.Proofs.Listing

/-!
# Entries of a map keyed by names

A name finds a value exactly when the two are an entry, and erasing a name
changes nothing for the others.
-/

namespace TarnBuild

theorem insertEntry_perm
    {Value : Type} {name : String} {entries : List (String × Value)}
    (absent : name ∉ entries.map Prod.fst) (value : Value) :
    (insertEntry name value entries).Perm ((name, value) :: entries) := by
  induction entries with
  | nil => exact .refl _
  | cons other rest ih =>
      rw [List.map_cons, List.mem_cons, not_or] at absent
      rw [insertEntry, if_neg absent.1]
      split
      · exact .refl _
      · exact ((ih absent.2).cons other).trans (.swap ..)

namespace NameMap

variable {Value : Type} {map : NameMap Value} {name : String} {value : Value}

theorem get?_eq_some_iff :
    map.get? name = some value ↔ (name, value) ∈ map.entries :=
  lookup_eq_some_iff_mem map.nodup_keys

theorem mem_keys_iff :
    name ∈ map.keys ↔ ∃ value, map.get? name = some value := by
  constructor
  · intro isKey
    rcases List.mem_map.1 isKey with ⟨⟨_, value⟩, isEntry, rfl⟩
    exact ⟨value, get?_eq_some_iff.2 isEntry⟩
  · rintro ⟨value, found⟩
    exact List.mem_map.2 ⟨(name, value), get?_eq_some_iff.1 found, rfl⟩

theorem keys_erase (map : NameMap Value) (name : String) :
    (map.erase name).keys = map.keys.filter (· != name) := by
  simp [keys, erase, List.filter_map, Function.comp_def]

theorem get?_erase_of_ne
    {other : String}
    (different : other ≠ name) :
    (map.erase name).get? other = map.get? other := by
  ext value
  rw [get?_eq_some_iff, get?_eq_some_iff]
  simp [erase, different]

theorem get?_eq_none_iff : map.get? name = none ↔ name ∉ map.keys :=
  lookup_eq_none_iff_notMem

/-- A map is known by its entries, in any order. -/
theorem eq_of_entries_perm
    {other : NameMap Value}
    (perm : map.entries.Perm other.entries) :
    map = other := by
  have sameEntries := perm.eq_of_pairwise
    (fun first second _ _ less greater => (String.lt_asymm less greater).elim)
    map.increasing other.increasing
  cases map
  cases other
  cases sameEntries
  rfl

/-- A map is known by what its names find. -/
theorem ext_get?
    {other : NameMap Value}
    (same : ∀ name, map.get? name = other.get? name) :
    map = other := by
  apply eq_of_entries_perm
  rw [List.perm_ext_iff_of_nodup (.of_map _ map.nodup_keys) (.of_map _ other.nodup_keys)]
  intro entry
  rw [← get?_eq_some_iff, ← get?_eq_some_iff, same]

/-- A new name adds its entry to the others. -/
theorem entries_insert_perm (absent : map.get? name = none) (value : Value) :
    (map.insert name value).entries.Perm ((name, value) :: map.entries) :=
  insertEntry_perm (get?_eq_none_iff.1 absent) value

/-- A name that was absent comes to the others. -/
theorem keys_insert_perm (absent : map.get? name = none) (value : Value) :
    (map.insert name value).keys.Perm (name :: map.keys) :=
  (entries_insert_perm absent value).map Prod.fst

/-- The values that the keys find, in their order, are those of the entries. -/
theorem filterMap_get?_keys
    {Result : Type} (map : NameMap Value) (view : Value → Result) :
    (map.keys.filterMap fun name => (map.get? name).map view) =
      map.entries.map fun entry => view entry.2 := by
  rw [keys, List.filterMap_map, ← List.filterMap_eq_map]
  apply List.filterMap_congr
  intro entry isEntry
  simp [get?_eq_some_iff.2 isEntry]

end NameMap

end TarnBuild
