import Mathlib.Data.List.DropRight
import TarnBuild.Text.Blank

/-!
# Trimmed texts

A trimmed text neither begins nor ends with a blank character, and a text that
neither begins nor ends with one is trimmed already.  So trimming twice is
trimming once.
-/

namespace TarnBuild.Text

variable {text : List Char} {character : Char}

/-- A text without blanks at its ends stays as it is. -/
theorem trimmed_eq_self
    (start : ∀ character ∈ text.head?, ¬ isBlank character)
    (stop : ∀ character ∈ text.getLast?, ¬ isBlank character) :
    trimmed text = text := by
  have dropNone {other : List Char} (first : ∀ character ∈ other.head?, ¬ isBlank character) :
      other.dropWhile isBlank = other := by
    cases other with
    | nil => rfl
    | cons character rest => exact List.dropWhile_cons_of_neg (first character rfl)
  rw [trimmed, dropNone start, dropNone (by simpa using stop), List.reverse_reverse]

theorem not_isBlank_of_mem_head?_dropWhile
    (isFirst : character ∈ (text.dropWhile isBlank).head?) :
    ¬ isBlank character := by
  have notBlank := List.head?_dropWhile_not isBlank text
  rw [Option.mem_def.1 isFirst] at notBlank
  simpa using notBlank

theorem not_isBlank_of_mem_getLast?_trimmed
    (isLast : character ∈ (trimmed text).getLast?) :
    ¬ isBlank character := by
  rw [trimmed, List.getLast?_reverse] at isLast
  exact not_isBlank_of_mem_head?_dropWhile isLast

theorem not_isBlank_of_mem_head?_trimmed
    (isFirst : character ∈ (trimmed text).head?) :
    ¬ isBlank character := by
  have isPrefix : trimmed text <+: text.dropWhile isBlank := List.rdropWhile_prefix _ _
  rcases isPrefix with ⟨rest, whole⟩
  have staysFirst : character ∈ (text.dropWhile isBlank).head? := by
    rw [← whole, List.head?_append, Option.mem_def.1 isFirst]
    rfl
  exact not_isBlank_of_mem_head?_dropWhile staysFirst

/-- Nothing is left to be removed after the first time. -/
theorem trimmed_trimmed (text : List Char) : trimmed (trimmed text) = trimmed text :=
  trimmed_eq_self (fun _ => not_isBlank_of_mem_head?_trimmed)
    (fun _ => not_isBlank_of_mem_getLast?_trimmed)

@[simp]
theorem trim_trim (text : String) : trim (trim text) = trim text := by
  rw [trim, trim, String.toList_ofList, trimmed_trimmed]

end TarnBuild.Text
