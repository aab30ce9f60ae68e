import TarnBuild.Name.Set

/-!
# Maps keyed by names

A map from names to values is held as the list of its entries, with keys in
increasing order and without repetition, so two maps with the same entries are
equal.
-/

namespace TarnBuild

variable {Value : Type}

/-- Put a value under a name into an increasing list of entries, in the place of
the value that the name had before, if it had one. -/
def insertEntry (name : String) (value : Value) :
    List (String × Value) → List (String × Value)
  | [] => [(name, value)]
  | other :: rest =>
      if name < other.1 then
        (name, value) :: other :: rest
      else if name = other.1 then
        (name, value) :: rest
      else
        other :: insertEntry name value rest

theorem mem_of_mem_insertEntry
    {name : String} {value : Value}
    {entry : String × Value} {entries : List (String × Value)}
    (isMember : entry ∈ insertEntry name value entries) :
    entry = (name, value) ∨ entry ∈ entries := by
  induction entries with
  | nil => simpa [insertEntry] using isMember
  | cons other rest ih =>
      simp only [insertEntry] at isMember
      split at isMember
      · simpa using isMember
      · split at isMember
        · rcases List.mem_cons.1 isMember with isNew | inRest
          · exact .inl isNew
          · exact .inr (List.mem_cons_of_mem _ inRest)
        · rcases List.mem_cons.1 isMember with rfl | inRest
          · exact .inr List.mem_cons_self
          · exact (ih inRest).imp_right (List.mem_cons_of_mem _)

theorem pairwise_insertEntry
    (name : String) (value : Value)
    {entries : List (String × Value)}
    (increasing : entries.Pairwise (·.1 < ·.1)) :
    (insertEntry name value entries).Pairwise (·.1 < ·.1) := by
  induction entries with
  | nil => simp [insertEntry]
  | cons other rest ih =>
      rw [List.pairwise_cons] at increasing
      simp only [insertEntry]
      split
      · next less =>
          refine List.pairwise_cons.2 ⟨?_, List.pairwise_cons.2 increasing⟩
          intro member isMember
          rcases List.mem_cons.1 isMember with rfl | inRest
          · exact less
          · exact String.lt_trans less (increasing.1 member inRest)
      · next notLess =>
          split
          · next equal =>
              refine List.pairwise_cons.2 ⟨?_, increasing.2⟩
              intro member inRest
              simpa [equal] using increasing.1 member inRest
          · next different =>
              refine List.pairwise_cons.2 ⟨?_, ih increasing.2⟩
              intro member isMember
              rcases mem_of_mem_insertEntry isMember with rfl | inRest
              · exact Std.lt_of_le_of_ne (Std.not_lt.1 notLess) (Ne.symm different)
              · exact increasing.1 member inRest

/-- A finite map from names to values. -/
structure NameMap (Value : Type) where
  /-- The entries, with keys in increasing order. -/
  entries : List (String × Value)
  increasing : entries.Pairwise (·.1 < ·.1)

namespace NameMap

/-- The map without entries. -/
def empty : NameMap Value := ⟨[], .nil⟩

instance : Inhabited (NameMap Value) := ⟨empty⟩

/-- The keys in increasing order. -/
def keys (map : NameMap Value) : List String :=
  map.entries.map Prod.fst

/-- The number of entries. -/
def size (map : NameMap Value) : Nat :=
  map.entries.length

/-- The value under a name, if there is one. -/
def get? (map : NameMap Value) (name : String) : Option Value :=
  map.entries.lookup name

/-- The map with a value under a name, replacing the one that was there. -/
def insert (map : NameMap Value) (name : String) (value : Value) : NameMap Value :=
  ⟨insertEntry name value map.entries,
    pairwise_insertEntry name value map.increasing⟩

/-- The map without the entry of a name. -/
def erase (map : NameMap Value) (name : String) : NameMap Value :=
  ⟨map.entries.filter (·.1 != name), map.increasing.filter _⟩

/-- The map with a function applied to each of its values. -/
def mapValues {Other : Type} (transform : Value → Other) (map : NameMap Value) :
    NameMap Other :=
  ⟨map.entries.map fun entry => (entry.1, transform entry.2), by
    simpa [List.pairwise_map] using map.increasing⟩

/-- The keys of a map strictly increase. -/
theorem pairwise_keys (map : NameMap Value) : map.keys.Pairwise (· < ·) := by
  simpa [keys, List.pairwise_map] using map.increasing

/-- No key of a map is repeated. -/
theorem nodup_keys (map : NameMap Value) : map.keys.Nodup :=
  nodup_of_increasing map.pairwise_keys

end NameMap

end TarnBuild
