import Mathlib.Data.List.Lex

/-!
# The bytes of a text

Texts are ordered by the code points of their characters.  The bytes of their
UTF-8 forms give the same order: the form of a smaller character is smaller than
that of a greater one before either ends.
-/

namespace TarnBuild.Text

/-- The UTF-8 form of a text. -/
def bytes (text : String) : List UInt8 :=
  text.toUTF8.data.toList

theorem bytes_eq_flatMap (text : String) :
    bytes text = text.toList.flatMap String.utf8EncodeChar := by
  rw [bytes, String.toUTF8_eq_toByteArray, ← String.utf8Encode_toList, List.utf8Encode,
    List.data_toByteArray]

/-- Different characters are told apart within their own bytes, whatever comes
after these. -/
theorem utf8EncodeChar_append_lt
    {first second : Char}
    (less : first < second)
    (rest others : List UInt8) :
    String.utf8EncodeChar first ++ rest < String.utf8EncodeChar second ++ others := by
  have lessCode : first.val.toNat < second.val.toNat := less
  have inRange : second.val.toNat < 0x110000 := by
    rcases second.valid with low | ⟨_, high⟩
    · exact Nat.lt_trans low (by decide)
    · exact high
  simp only [String.utf8EncodeChar]
  generalize first.val.toNat = code at *
  generalize second.val.toNat = otherCode at *
  -- The bytes hold the digits of the code to the base 64.
  have third (number : Nat) : number / 4096 = number / 64 / 64 := by omega
  have fourth (number : Nat) : number / 262144 = number / 64 / 64 / 64 := by omega
  split_ifs <;>
    simp only [List.cons_append, List.nil_append, List.cons_lt_cons_iff,
      UInt8.lt_iff_toNat_lt, ← UInt8.toNat_inj, UInt8.toNat_ofNat', third, fourth] <;>
    omega

theorem flatMap_utf8EncodeChar_lt
    {first second : List Char}
    (less : first < second) :
    first.flatMap String.utf8EncodeChar < second.flatMap String.utf8EncodeChar := by
  induction less with
  | @nil character rest =>
      rcases List.exists_cons_of_ne_nil (String.utf8EncodeChar_ne_nil (c := character)) with
        ⟨byte, others, form⟩
      rw [List.flatMap_nil, List.flatMap_cons, form]
      exact List.nil_lt_cons ..
  | rel less => exact utf8EncodeChar_append_lt less _ _
  | cons less ih => exact List.append_left_lt ih

theorem bytes_lt_bytes {first second : String} (less : first < second) :
    bytes first < bytes second := by
  rw [bytes_eq_flatMap, bytes_eq_flatMap]
  exact flatMap_utf8EncodeChar_lt (String.lt_iff.1 less)

/-- Texts are ordered as their bytes are. -/
theorem bytes_lt_bytes_iff {first second : String} :
    bytes first < bytes second ↔ first < second := by
  refine ⟨fun less => ?_, bytes_lt_bytes⟩
  by_contra notLess
  by_cases same : first = second
  · subst same
    exact List.lt_irrefl _ less
  · have greater : second < first :=
      Std.lt_of_le_of_ne (Std.not_lt.1 notLess) (Ne.symm same)
    exact List.lt_asymm less (bytes_lt_bytes greater)

theorem bytes_injective {first second : String} (same : bytes first = bytes second) :
    first = second := by
  rw [← String.toByteArray_inj, ← String.toUTF8_eq_toByteArray, ← String.toUTF8_eq_toByteArray]
  exact ByteArray.ext (Array.toList_inj.1 same)

/-- Lists of texts are ordered as the lists of their bytes are, text by text. -/
theorem map_bytes_lt_map_bytes_iff {first second : List String} :
    first.map bytes < second.map bytes ↔ first < second := by
  induction first generalizing second with
  | nil => cases second <;> simp
  | cons text rest ih =>
      cases second with
      | nil => simp
      | cons other others =>
          simp only [List.map_cons, List.cons_lt_cons_iff, bytes_lt_bytes_iff, ih]
          exact or_congr_right (and_congr_left' ⟨bytes_injective, congrArg bytes⟩)

end TarnBuild.Text
