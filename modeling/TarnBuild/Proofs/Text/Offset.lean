import TarnBuild.Text.Offset

/-!
# Offsets between characters

An offset that is the length of a front of a text determines this front, since
every character takes at least one byte.
-/

namespace TarnBuild.Text

theorem byteLength_eq_zero_iff {text : List Char} : byteLength text = 0 ↔ text = [] := by
  cases text with
  | nil => simp
  | cons character rest =>
      have positive := character.utf8Size_pos
      simp only [byteLength_cons, reduceCtorEq, iff_false]
      omega

theorem byteLength_pos_iff {text : List Char} : 0 < byteLength text ↔ text ≠ [] := by
  rw [Nat.pos_iff_ne_zero, ne_eq, byteLength_eq_zero_iff]

/-- Two fronts of a text with the same length in bytes are the same. -/
theorem append_inj_of_byteLength
    {first second rest otherRest : List Char}
    (same : first ++ rest = second ++ otherRest)
    (sameLength : byteLength first = byteLength second) :
    first = second ∧ rest = otherRest := by
  induction first generalizing second with
  | nil =>
      have empty : second = [] := byteLength_eq_zero_iff.1 sameLength.symm
      subst empty
      exact ⟨rfl, same⟩
  | cons character others ih =>
      cases second with
      | nil => simpa [byteLength_eq_zero_iff] using byteLength_eq_zero_iff.1 sameLength
      | cons other secondOthers =>
          rcases List.cons.inj same with ⟨rfl, othersSame⟩
          rcases ih othersSame (by simpa using sameLength) with ⟨rfl, rfl⟩
          exact ⟨rfl, rfl⟩

/-- The offset after the front of a text falls between two characters. -/
theorem prefixTo?_append (front rest : List Char) :
    prefixTo? (front ++ rest) (byteLength front) = some front := by
  induction front with
  | nil => cases rest <;> rfl
  | cons character front ih =>
      have positive := character.utf8Size_pos
      have notZero : character.utf8Size + byteLength front ≠ 0 := by omega
      rcases Nat.exists_eq_succ_of_ne_zero notZero with ⟨offset, same⟩
      rw [byteLength_cons, same, List.cons_append, prefixTo?, if_pos (by omega),
        show offset + 1 - character.utf8Size = byteLength front by omega, ih]
      rfl

/-- Every offset beyond the end of a text is read as its end. -/
theorem prefixTo?_of_byteLength_le
    {text : List Char} {offset : Nat} (beyond : byteLength text ≤ offset) :
    prefixTo? text offset = some text := by
  induction text generalizing offset with
  | nil => cases offset <;> rfl
  | cons character rest ih =>
      have positive := character.utf8Size_pos
      rw [byteLength_cons] at beyond
      have notZero : offset ≠ 0 := by omega
      rcases Nat.exists_eq_succ_of_ne_zero notZero with ⟨offset, rfl⟩
      rw [prefixTo?, if_pos (by omega), ih (by omega)]
      rfl

/-! ## Boundaries -/

/-- The offset falls between two characters of the text, or at one of its ends. -/
def IsBoundary (text : List Char) (offset : Nat) : Prop :=
  ∃ before after, text = before ++ after ∧ offset = byteLength before

/-- The span is in order and within the text, and cuts through no character, so
that the text can be sliced at it. -/
structure Span.IsWithin (span : Span) (text : List Char) : Prop where
  ordered : span.start ≤ span.stop
  inRange : span.stop ≤ byteLength text
  isBoundary_start : IsBoundary text span.start
  isBoundary_stop : IsBoundary text span.stop

theorem Span.isWithin_of_append (before piece after : List Char) :
    Span.IsWithin ⟨byteLength before, byteLength (before ++ piece)⟩ (before ++ piece ++ after) where
  ordered := by simp
  inRange := by simp
  isBoundary_start := ⟨before, piece ++ after, by simp, rfl⟩
  isBoundary_stop := ⟨before ++ piece, after, rfl, rfl⟩

end TarnBuild.Text
