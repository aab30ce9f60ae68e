import Mathlib.Data.List.Forall2
import Mathlib.Data.List.Nodup

/-!
# Keys and order in lists

A list of entries with distinct keys is a finite map, items can be sorted by their
keys, and a list of distinct members puts one of them before another.  The members
of two lists may also belong to each other place by place.
-/

namespace TarnBuild

/-! ## Entries with distinct keys -/

section Lookup

variable {Key Value : Type} [DecidableEq Key]
  {entries : List (Key × Value)} {key : Key} {value : Value}

theorem mem_of_lookup_eq_some (found : entries.lookup key = some value) :
    (key, value) ∈ entries := by
  rcases List.lookup_eq_some_iff.1 found with ⟨before, after, equation, _⟩
  simp [equation]

theorem lookup_eq_none_iff_notMem :
    entries.lookup key = none ↔ key ∉ entries.map Prod.fst := by
  rw [List.lookup_eq_none_iff]
  constructor
  · rintro noneIsKey isKey
    rcases List.mem_map.1 isKey with ⟨entry, isEntry, rfl⟩
    simpa using noneIsKey entry isEntry
  · intro notKey entry isEntry
    have different : key ≠ entry.1 := by
      rintro rfl
      exact notKey (List.mem_map_of_mem isEntry)
    simpa using different

/-- Looking up a key finds exactly the entries when no key is repeated. -/
theorem lookup_eq_some_iff_mem (distinct : (entries.map Prod.fst).Nodup) :
    entries.lookup key = some value ↔ (key, value) ∈ entries := by
  refine ⟨mem_of_lookup_eq_some, fun isMember => ?_⟩
  rcases List.append_of_mem isMember with ⟨before, after, rfl⟩
  refine List.lookup_eq_some_iff.2 ⟨before, after, rfl, fun entry isBefore => ?_⟩
  rw [List.map_append, List.nodup_append] at distinct
  have different : entry.1 ≠ key :=
    distinct.2.2 entry.1 (List.mem_map_of_mem isBefore) key (by simp)
  simpa using different.symm

end Lookup

/-! ## Items with keys -/

/-- Sorted by their keys, items have increasing keys. -/
theorem pairwise_mergeSort_key
    {Item : Type} (key : Item → String) (items : List Item) :
    (items.mergeSort fun first second => decide (key first ≤ key second)).Pairwise
      fun first second => key first ≤ key second := by
  have sorted : (items.mergeSort fun first second => decide (key first ≤ key second)).Pairwise
      fun first second => decide (key first ≤ key second) = true := by
    apply List.pairwise_mergeSort
    · intro first second third
      simpa using String.le_trans
    · intro first second
      simpa using String.le_total (key first) (key second)
  exact sorted.imp of_decide_eq_true

/-- With distinct keys, an item is all that there is under its key. -/
theorem filter_key_eq_singleton_iff
    {Item Key : Type} [DecidableEq Key] {key : Item → Key} {items : List Item}
    (distinct : (items.map key).Nodup) {value : Key} {item : Item} :
    items.filter (fun other => key other = value) = [item] ↔
      item ∈ items ∧ key item = value := by
  constructor
  · intro found
    have isFound : item ∈ items.filter fun other => key other = value := by simp [found]
    simpa using isFound
  · rintro ⟨isMember, rfl⟩
    rcases List.append_of_mem isMember with ⟨before, after, rfl⟩
    rw [List.map_append, List.map_cons, List.nodup_middle, List.nodup_cons,
      ← List.map_append] at distinct
    have othersDiffer : ∀ other ∈ before ++ after, ¬ key other = key item :=
      fun other isOther same => distinct.1 (same ▸ List.mem_map_of_mem isOther)
    rcases List.forall_mem_append.1 othersDiffer with ⟨beforeDiffer, afterDiffer⟩
    have noneBefore : before.filter (fun other => key other = key item) = [] :=
      List.filter_eq_nil_iff.2 (by simpa using beforeDiffer)
    have noneAfter : after.filter (fun other => key other = key item) = [] :=
      List.filter_eq_nil_iff.2 (by simpa using afterDiffer)
    simp [noneBefore, noneAfter]

/-! ## Lists side by side -/

section Forall₂

variable {First Second : Type} {Belong : First → Second → Prop}
  {items : List First} {others : List Second}

theorem exists_of_forall₂_of_mem
    {item : First}
    (belong : List.Forall₂ Belong items others)
    (isMember : item ∈ items) :
    ∃ other ∈ others, Belong item other := by
  induction belong with
  | nil => cases isMember
  | cons belongs _ ih =>
      rcases List.mem_cons.1 isMember with rfl | inRest
      · exact ⟨_, List.mem_cons_self, belongs⟩
      · rcases ih inRest with ⟨other, isOther, belongs⟩
        exact ⟨other, List.mem_cons_of_mem _ isOther, belongs⟩

end Forall₂

/-! ## The order of a list -/

variable {Item : Type}

/-- One item stands before another in a list. -/
def StandsBefore (list : List Item) (first second : Item) : Prop :=
  [first, second].Sublist list

theorem StandsBefore.cons
    {list : List Item} {first second : Item}
    (stands : StandsBefore list first second) (head : Item) :
    StandsBefore (head :: list) first second :=
  List.Sublist.cons head stands

/-- The head of a list stands before every other item. -/
theorem standsBefore_head
    {list : List Item} {second : Item}
    (isMember : second ∈ list) (head : Item) :
    StandsBefore (head :: list) head second :=
  List.Sublist.cons_cons head (List.singleton_sublist.2 isMember)

theorem StandsBefore.reverse
    {list : List Item} {first second : Item}
    (stands : StandsBefore list first second) :
    StandsBefore list.reverse second first := by
  simpa [StandsBefore] using List.Sublist.reverse stands

/-- In a list without repetition what stands before has the smaller index. -/
theorem StandsBefore.idxOf_lt
    [DecidableEq Item] {list : List Item} {first second : Item}
    (distinct : list.Nodup)
    (stands : StandsBefore list first second) :
    list.idxOf first < list.idxOf second := by
  induction list with
  | nil => cases stands
  | cons head rest ih =>
      rcases List.nodup_cons.1 distinct with ⟨notInRest, restDistinct⟩
      cases stands with
      | cons _ stands =>
          have isFirst : first ∈ rest := stands.subset (by simp)
          have isSecond : second ∈ rest := stands.subset (by simp)
          have firstNe : head ≠ first := fun equal => notInRest (equal ▸ isFirst)
          have secondNe : head ≠ second := fun equal => notInRest (equal ▸ isSecond)
          rw [List.idxOf_cons_ne _ firstNe, List.idxOf_cons_ne _ secondNe]
          exact Nat.succ_lt_succ (ih restDistinct stands)
      | cons_cons _ stands =>
          have isSecond : second ∈ rest := List.singleton_sublist.1 stands
          have secondNe : first ≠ second := fun equal => notInRest (equal ▸ isSecond)
          rw [List.idxOf_cons_self, List.idxOf_cons_ne _ secondNe]
          exact Nat.succ_pos _

end TarnBuild
