/-!
# Offsets into a text

Places in a text are counted in bytes of its UTF-8 form.  Not every number is
the place of a character: `prefixTo?` answers only for those offsets that fall
between two characters, and reads every offset beyond the end as the end.

A place is shown to people as a line and a column.  Lines are ended by line
feeds, columns count characters, and both start at one.
-/

namespace TarnBuild.Text

/-- The length in bytes of the UTF-8 form of a text. -/
def byteLength : List Char → Nat
  | [] => 0
  | character :: rest => character.utf8Size + byteLength rest

@[simp]
theorem byteLength_nil : byteLength [] = 0 := rfl

@[simp]
theorem byteLength_cons (character : Char) (text : List Char) :
    byteLength (character :: text) = character.utf8Size + byteLength text := rfl

@[simp]
theorem byteLength_append (first second : List Char) :
    byteLength (first ++ second) = byteLength first + byteLength second := by
  induction first with
  | nil => simp
  | cons character rest ih => simp [ih, Nat.add_assoc]

/-- A half-open range of byte offsets. -/
structure Span where
  start : Nat
  stop : Nat
  deriving DecidableEq, Repr

/-- The text before a byte offset, which must not fall inside a character.
An offset beyond the end of the text stands for the end. -/
def prefixTo? : List Char → Nat → Option (List Char)
  | _, 0 => some []
  | [], _ + 1 => some []
  | character :: rest, offset + 1 =>
      if character.utf8Size ≤ offset + 1 then
        (prefixTo? rest (offset + 1 - character.utf8Size)).map (character :: ·)
      else
        none

/-- The characters that start before a byte offset. -/
def takeBytes : Nat → List Char → List Char
  | 0, _ => []
  | _ + 1, [] => []
  | count + 1, character :: rest =>
      character :: takeBytes (count + 1 - character.utf8Size) rest

/-- The characters that start at or after a byte offset. -/
def dropBytes : Nat → List Char → List Char
  | 0, text => text
  | _ + 1, [] => []
  | count + 1, character :: rest =>
      dropBytes (count + 1 - character.utf8Size) rest

/-- The part of a text that a span covers. -/
def slice (text : List Char) (span : Span) : List Char :=
  takeBytes (span.stop - span.start) (dropBytes span.start text)

@[simp]
theorem dropBytes_byteLength_append (first second : List Char) :
    dropBytes (byteLength first) (first ++ second) = second := by
  induction first with
  | nil => simp [dropBytes]
  | cons character rest ih =>
      have positive := character.utf8Size_pos
      obtain ⟨count, equation⟩ :
          ∃ count, byteLength (character :: rest) = count + 1 :=
        ⟨byteLength (character :: rest) - 1, by simp; omega⟩
      rw [equation, List.cons_append, dropBytes]
      rw [byteLength_cons] at equation
      rw [show count + 1 - character.utf8Size = byteLength rest by omega, ih]

@[simp]
theorem takeBytes_byteLength_append (first second : List Char) :
    takeBytes (byteLength first) (first ++ second) = first := by
  induction first with
  | nil => simp [takeBytes]
  | cons character rest ih =>
      have positive := character.utf8Size_pos
      obtain ⟨count, equation⟩ :
          ∃ count, byteLength (character :: rest) = count + 1 :=
        ⟨byteLength (character :: rest) - 1, by simp; omega⟩
      rw [equation, List.cons_append, takeBytes]
      rw [byteLength_cons] at equation
      rw [show count + 1 - character.utf8Size = byteLength rest by omega, ih]

/-- The slice of a text between two of its pieces is the piece between them. -/
theorem slice_append_append (before middle after : List Char) :
    slice (before ++ middle ++ after)
        ⟨byteLength before, byteLength before + byteLength middle⟩ =
      middle := by
  simp [slice, List.append_assoc]

/-- A line and a column, both counted from one. -/
structure Position where
  line : Nat
  column : Nat
  deriving DecidableEq, Repr

/-- The position just after a text that starts at line one, column one. -/
def Position.after (before : List Char) : Position where
  line := before.count '\n' + 1
  column := (before.reverse.takeWhile (· != '\n')).length + 1

/-- The position of a byte offset, if it does not fall inside a character. -/
def position? (text : List Char) (offset : Nat) : Option Position :=
  (prefixTo? text offset).map Position.after

end TarnBuild.Text
