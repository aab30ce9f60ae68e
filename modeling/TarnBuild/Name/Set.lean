/-!
# Sets of names

A set of names is held as the list of its members in increasing order, without
repetition, so two sets with the same members are equal.  Names are ordered by
the code points of their characters.
-/

namespace TarnBuild

/-- Put a name into its place in an increasing list, unless it is there already. -/
def insertName (name : String) : List String → List String
  | [] => [name]
  | other :: rest =>
      if name < other then
        name :: other :: rest
      else if name = other then
        other :: rest
      else
        other :: insertName name rest

@[simp]
theorem mem_insertName {name member : String} {names : List String} :
    member ∈ insertName name names ↔ member = name ∨ member ∈ names := by
  induction names with
  | nil => simp [insertName]
  | cons other rest ih =>
      simp only [insertName]
      split
      · simp
      · split
        · next equal => subst equal; simp
        · simp [ih, or_left_comm]

theorem pairwise_insertName
    (name : String)
    {names : List String}
    (increasing : names.Pairwise (· < ·)) :
    (insertName name names).Pairwise (· < ·) := by
  induction names with
  | nil => simp [insertName]
  | cons other rest ih =>
      rw [List.pairwise_cons] at increasing
      simp only [insertName]
      split
      · next less =>
          refine List.pairwise_cons.2 ⟨?_, List.pairwise_cons.2 increasing⟩
          intro member isMember
          rcases List.mem_cons.1 isMember with rfl | inRest
          · exact less
          · exact String.lt_trans less (increasing.1 member inRest)
      · next notLess =>
          split
          · exact List.pairwise_cons.2 increasing
          · next different =>
              refine List.pairwise_cons.2 ⟨?_, ih increasing.2⟩
              intro member isMember
              rcases mem_insertName.1 isMember with rfl | inRest
              · exact Std.lt_of_le_of_ne (Std.not_lt.1 notLess) (Ne.symm different)
              · exact increasing.1 member inRest

/-- Increasing names are not repeated. -/
theorem nodup_of_increasing {names : List String} (increasing : names.Pairwise (· < ·)) :
    names.Nodup :=
  List.nodup_iff_pairwise_ne.2 <| increasing.imp fun less equal => by
    rw [equal] at less
    exact String.lt_irrefl _ less

/-- A finite set of names. -/
structure NameSet where
  /-- The members in increasing order. -/
  toList : List String
  increasing : toList.Pairwise (· < ·)
  deriving DecidableEq, Repr

namespace NameSet

/-- The set without members. -/
def empty : NameSet := ⟨[], .nil⟩

instance : Inhabited NameSet := ⟨empty⟩

instance : Membership String NameSet := ⟨fun names name => name ∈ names.toList⟩

instance (name : String) (names : NameSet) : Decidable (name ∈ names) :=
  inferInstanceAs (Decidable (name ∈ names.toList))

@[simp]
theorem mem_toList {name : String} {names : NameSet} :
    name ∈ names.toList ↔ name ∈ names := Iff.rfl

/-- The set with one more member. -/
def insert (names : NameSet) (name : String) : NameSet :=
  ⟨insertName name names.toList, pairwise_insertName name names.increasing⟩

@[simp]
theorem mem_insert {names : NameSet} {name member : String} :
    member ∈ names.insert name ↔ member = name ∨ member ∈ names :=
  mem_insertName

@[simp]
theorem not_mem_empty {name : String} : ¬ name ∈ empty :=
  List.not_mem_nil

/-- The names that occur in a list. -/
def ofList (names : List String) : NameSet :=
  names.foldr (fun name rest => rest.insert name) empty

@[simp]
theorem mem_ofList {name : String} {names : List String} :
    name ∈ ofList names ↔ name ∈ names := by
  induction names with
  | nil => simp [ofList]
  | cons other rest ih =>
      rw [ofList, List.foldr_cons, mem_insert, List.mem_cons]
      exact or_congr_right ih

theorem nodup_toList (names : NameSet) : names.toList.Nodup :=
  nodup_of_increasing names.increasing

theorem eq_of_toList_eq
    {names others : NameSet}
    (same : names.toList = others.toList) :
    names = others := by
  cases names
  cases others
  cases same
  rfl

/-- A set is known by its members. -/
theorem ext_mem
    {names others : NameSet}
    (same : ∀ name, name ∈ names ↔ name ∈ others) :
    names = others := by
  have perm : names.toList.Perm others.toList :=
    (List.perm_ext_iff_of_nodup names.nodup_toList others.nodup_toList).2 same
  exact eq_of_toList_eq <| perm.eq_of_pairwise
    (fun first second _ _ less greater => (String.lt_asymm less greater).elim)
    names.increasing others.increasing

end NameSet

end TarnBuild
