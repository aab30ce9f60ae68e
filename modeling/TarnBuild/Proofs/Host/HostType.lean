import TarnBuild.Host.HostType
import TarnBuild.Proofs.Text.Trim

/-!
# Host types and their names

A text names a host type with a counterpart when it is the name of one, apart
from blank characters around it; every other text names a type of its own, by
what is left of it after trimming.  Whatever type a text names, the name of that
type names it again.
-/

namespace TarnBuild.HostType

variable {text name : String}

theorem other_notMem_known (name : String) : other name ∉ known := by
  simp [known]

theorem ofText_name_of_mem_known : ∀ type ∈ known, ofText type.name = type := by
  decide

/-- What a text names: the known type with its name, or a type of its own. -/
theorem ofText_cases (text : String) :
    (∃ type ∈ known, type.name = Text.trim text ∧ ofText text = type) ∨
      (Text.trim text ∉ known.map HostType.name ∧ ofText text = other (Text.trim text)) := by
  have same : ofText text =
      (known.find? fun type => type.name == Text.trim text).getD (other (Text.trim text)) := rfl
  rw [same]
  cases found : known.find? fun type => type.name == Text.trim text with
  | some type =>
      refine .inl ⟨type, List.mem_of_find?_eq_some found, ?_, rfl⟩
      simpa using List.find?_some found
  | none =>
      refine .inr ⟨fun isName => ?_, rfl⟩
      rcases List.mem_map.1 isName with ⟨type, isKnown, same⟩
      exact List.find?_eq_none.1 found type isKnown (by simpa using same)

/-- A name stands for no known type exactly if it is none of their names,
without the blanks around it. -/
theorem ofText_eq_other_iff :
    ofText text = other name ↔
      name = Text.trim text ∧ name ∉ known.map HostType.name := by
  rcases ofText_cases text with ⟨type, isKnown, isName, same⟩ | ⟨notName, same⟩
  · rw [same]
    constructor
    · rintro rfl
      exact (other_notMem_known name isKnown).elim
    · rintro ⟨rfl, notName⟩
      exact (notName (isName ▸ List.mem_map_of_mem isKnown)).elim
  · rw [same]
    constructor
    · rintro ⟨⟩
      exact ⟨rfl, notName⟩
    · rintro ⟨rfl, _⟩
      rfl

/-- The name of a type names it again. -/
def IsReadBack (type : HostType) : Prop :=
  ofText type.name = type

theorem isReadBack_other_iff :
    (other name).IsReadBack ↔ Text.trim name = name ∧ name ∉ known.map HostType.name := by
  rw [IsReadBack, HostType.name, ofText_eq_other_iff, eq_comm (a := name)]

/-- The type that is made of a text is read back from its name. -/
theorem isReadBack_ofText (text : String) : (ofText text).IsReadBack := by
  rcases ofText_cases text with ⟨type, isKnown, _, same⟩ | ⟨notName, same⟩
  · rw [same]
    exact ofText_name_of_mem_known type isKnown
  · rw [same, isReadBack_other_iff]
    exact ⟨Text.trim_trim text, notName⟩

end TarnBuild.HostType
