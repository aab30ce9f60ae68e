import Mathlib.Data.List.Forall2

/-!
# Computations that may fail

When a computation that is made of others succeeds or fails: one after the
other, with another error in the place of its own, or along a list.
-/

namespace TarnBuild.Except

variable {Fault Value Other : Type} {result : Except Fault Value}

theorem bind_eq_ok_iff {next : Value → Except Fault Other} {other : Other} :
    result >>= next = .ok other ↔ ∃ value, result = .ok value ∧ next value = .ok other := by
  cases result <;> simp [bind, Except.bind]

theorem bind_eq_error_iff {next : Value → Except Fault Other} {fault : Fault} :
    result >>= next = .error fault ↔
      result = .error fault ∨ ∃ value, result = .ok value ∧ next value = .error fault := by
  cases result <;> simp [bind, Except.bind]

theorem mapError_eq_error_iff {wrap : Fault → Other} {other : Other} :
    result.mapError wrap = .error other ↔
      ∃ fault, result = .error fault ∧ wrap fault = other := by
  cases result <;> simp [Except.mapError]

/-! ## Lists -/

variable {Item : Type} {view : Item → Except Fault Value} {items : List Item}

theorem mapM_eq_ok_iff {values : List Value} :
    items.mapM view = .ok values ↔
      List.Forall₂ (fun item value => view item = .ok value) items values := by
  induction items generalizing values with
  | nil => simp [pure, Except.pure, eq_comm]
  | cons item rest ih =>
      simp only [List.mapM_cons, bind_eq_ok_iff, ih, List.forall₂_cons_left_iff]
      simp [pure, Except.pure, eq_comm]

theorem forM_eq_ok_iff {check : Item → Except Fault Unit} :
    items.forM check = .ok () ↔ ∀ item ∈ items, check item = .ok () := by
  induction items with
  | nil => exact ⟨fun _ => nofun, fun _ => rfl⟩
  | cons item rest ih =>
      show (check item >>= fun _ => rest.forM check) = .ok () ↔ _
      simp only [bind_eq_ok_iff, ih, List.forall_mem_cons]
      exact ⟨fun ⟨_, checked, restChecked⟩ => ⟨checked, restChecked⟩,
        fun ⟨checked, restChecked⟩ => ⟨(), checked, restChecked⟩⟩

/-- Going along a list stops at the first item without a value. -/
theorem mapM_eq_error_iff {fault : Fault} :
    items.mapM view = .error fault ↔
      ∃ before item after, items = before ++ item :: after ∧
        (∀ other ∈ before, ∃ value, view other = .ok value) ∧ view item = .error fault := by
  induction items with
  | nil => simp [pure, Except.pure]
  | cons first rest ih =>
      simp only [List.mapM_cons, bind_eq_error_iff, ih, List.cons_eq_append_iff]
      constructor
      · rintro (failed | ⟨value, isValue, ⟨before, item, after, rfl, areValues, failed⟩ | ⟨_, _, failed⟩⟩)
        · exact ⟨[], first, rest, .inl ⟨rfl, rfl⟩, nofun, failed⟩
        · exact ⟨first :: before, item, after, .inr ⟨before, rfl, rfl⟩,
            List.forall_mem_cons.2 ⟨⟨value, isValue⟩, areValues⟩, failed⟩
        · cases failed
      · rintro ⟨before, item, after, ⟨rfl, same⟩ | ⟨others, rfl, rfl⟩, areValues, failed⟩
        · cases same
          exact .inl failed
        · rcases List.forall_mem_cons.1 areValues with ⟨⟨value, isValue⟩, areValues⟩
          exact .inr ⟨value, isValue, .inl ⟨others, item, after, rfl, areValues, failed⟩⟩

/-- A state that goes along a list stops at the first item that refuses it. -/
theorem foldlM_eq_error_iff
    {State : Type} {step : State → Item → Except Fault State} {start : State} {fault : Fault} :
    items.foldlM step start = .error fault ↔
      ∃ before item after state, items = before ++ item :: after ∧
        before.foldlM step start = .ok state ∧ step state item = .error fault := by
  induction items generalizing start with
  | nil => simp [pure, Except.pure]
  | cons first rest ih =>
      simp only [List.foldlM_cons, bind_eq_error_iff, ih, List.cons_eq_append_iff]
      constructor
      · rintro (failed | ⟨next, isNext, before, item, after, state, rfl, reached, failed⟩)
        · exact ⟨[], first, rest, start, .inl ⟨rfl, rfl⟩, rfl, failed⟩
        · exact ⟨first :: before, item, after, state, .inr ⟨before, rfl, rfl⟩,
            bind_eq_ok_iff.2 ⟨next, isNext, reached⟩, failed⟩
      · rintro ⟨before, item, after, state, ⟨rfl, same⟩ | ⟨others, rfl, rfl⟩, reached, failed⟩
        · cases same
          cases reached
          exact .inl failed
        · rcases bind_eq_ok_iff.1 reached with ⟨next, isNext, reached⟩
          exact .inr ⟨next, isNext, others, item, after, state, rfl, reached, failed⟩

/-- The fault of a list is the fault of one of its items. -/
theorem exists_of_mapM_eq_error {fault : Fault} (failed : items.mapM view = .error fault) :
    ∃ item ∈ items, view item = .error fault := by
  rcases mapM_eq_error_iff.1 failed with ⟨before, item, after, rfl, _, failed⟩
  exact ⟨item, by simp, failed⟩

end TarnBuild.Except
