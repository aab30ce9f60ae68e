/-!
# Texts and keys of TOML

The parts of a TOML document below its values: blanks, comments and line ends,
the four kinds of strings, and keys.  Each reader takes what it reads from the
front of a text and leaves the rest.
-/

namespace TarnBuild.Toml

/-- A reader takes an item from the front of a text, if one stands there. -/
abbrev Read (Item : Type) := List Char → Option (Item × List Char)

/-- The blanks within a line. -/
def isBlank (character : Char) : Bool :=
  character == ' ' || character == '\t'

/-- The text after the blanks at its front. -/
def skipBlanks (text : List Char) : List Char :=
  text.dropWhile isBlank

/-- The characters that may stand in a comment and in a string on one line:
all but the control characters other than the tab. -/
def isPlain (character : Char) : Bool :=
  character == '\t' || (0x20 ≤ character.toNat && character.toNat ≠ 0x7F)

/-- The text after the line end at its front. -/
def lineEnd? : List Char → Option (List Char)
  | '\n' :: rest => some rest
  | '\r' :: '\n' :: rest => some rest
  | _ => none

/-- The text after the comment at its front, if there is one. -/
def skipComment : List Char → List Char
  | '#' :: rest => rest.dropWhile isPlain
  | text => text

/-- The text after what may end a line at its front: blanks, a comment, and a
line end unless the text ends. -/
def finishLine? (text : List Char) : Option (List Char) :=
  match skipComment (skipBlanks text) with
  | [] => some []
  | rest => lineEnd? rest

theorem length_of_lineEnd?
    {text rest : List Char} (found : lineEnd? text = some rest) :
    rest.length < text.length := by
  unfold lineEnd? at found
  split at found
  · cases found; simp only [List.length_cons]; omega
  · cases found; simp only [List.length_cons]; omega
  · cases found

theorem length_skipBlanks_le (text : List Char) :
    (skipBlanks text).length ≤ text.length :=
  (List.dropWhile_suffix isBlank).length_le

theorem length_skipComment_le (text : List Char) :
    (skipComment text).length ≤ text.length := by
  unfold skipComment
  split
  · exact Nat.le_succ_of_le (List.dropWhile_suffix isPlain).length_le
  · exact Nat.le_refl _

/-- The text after all blanks, comments and line ends at its front.  A comment
needs a line end. -/
def skipLines (text : List Char) : List Char :=
  match _found : lineEnd? (skipComment (skipBlanks text)) with
  | some rest => skipLines rest
  | none => skipBlanks text
termination_by text.length
decreasing_by
  have first := length_of_lineEnd? _found
  have second := length_skipComment_le (skipBlanks text)
  have third := length_skipBlanks_le text
  omega

/-- The value of a hexadecimal digit. -/
def hexDigit? (character : Char) : Option Nat :=
  if '0' ≤ character && character ≤ '9' then some (character.toNat - '0'.toNat)
  else if 'a' ≤ character && character ≤ 'f' then
    some (character.toNat - 'a'.toNat + 10)
  else if 'A' ≤ character && character ≤ 'F' then
    some (character.toNat - 'A'.toNat + 10)
  else none

/-- The character whose number is written by some hexadecimal digits. -/
def numberedChar? (digits : List Char) : Option Char := do
  let values ← digits.mapM hexDigit?
  let number := values.foldl (fun total value => total * 16 + value) 0
  if number.isValidChar then some (Char.ofNat number) else none

/-- The character that a letter stands for after a backslash. -/
def escapedChar? : Char → Option Char
  | 'b' => some '\x08'
  | 't' => some '\t'
  | 'n' => some '\n'
  | 'f' => some '\x0c'
  | 'r' => some '\r'
  | '"' => some '"'
  | '\\' => some '\\'
  | _ => none

/-- What a backslash stands for together with the text after it. -/
def escape? : Read Char
  | 'u' :: rest =>
      if 4 ≤ rest.length then
        (numberedChar? (rest.take 4)).map (·, rest.drop 4)
      else none
  | 'U' :: rest =>
      if 8 ≤ rest.length then
        (numberedChar? (rest.take 8)).map (·, rest.drop 8)
      else none
  | letter :: rest => (escapedChar? letter).map (·, rest)
  | [] => none

theorem length_of_escape?
    {text rest : List Char} {character : Char}
    (found : escape? text = some (character, rest)) :
    rest.length < text.length := by
  unfold escape? at found
  split at found
  · split at found
    · obtain ⟨_, _, equation⟩ := Option.map_eq_some_iff.1 found
      cases equation
      simp only [List.length_drop, List.length_cons]
      omega
    · cases found
  · split at found
    · obtain ⟨_, _, equation⟩ := Option.map_eq_some_iff.1 found
      cases equation
      simp only [List.length_drop, List.length_cons]
      omega
    · cases found
  · obtain ⟨_, _, equation⟩ := Option.map_eq_some_iff.1 found
    cases equation
    simp only [List.length_cons]
    omega
  · cases found

/-- A string with escapes on one line, after its opening quotation mark. -/
def basicString? (text : List Char) : Option (List Char × List Char) :=
  match text with
  | [] => none
  | '"' :: rest => some ([], rest)
  | '\\' :: rest =>
      match _found : escape? rest with
      | none => none
      | some (character, after) =>
          (basicString? after).map fun split => (character :: split.1, split.2)
  | character :: rest =>
      if isPlain character then
        (basicString? rest).map fun split => (character :: split.1, split.2)
      else
        none
termination_by text.length
decreasing_by
  · have := length_of_escape? _found
    simp only [List.length_cons]
    omega
  · simp only [List.length_cons]
    omega

/-- A string without escapes on one line, after its opening apostrophe. -/
def literalString? (text : List Char) : Option (List Char × List Char) :=
  match text with
  | [] => none
  | '\'' :: rest => some ([], rest)
  | character :: rest =>
      if isPlain character then
        (literalString? rest).map fun split => (character :: split.1, split.2)
      else
        none

/-- The text after the blanks and line ends at its front. -/
def skipLayout : List Char → List Char
  | ' ' :: rest => skipLayout rest
  | '\t' :: rest => skipLayout rest
  | '\n' :: rest => skipLayout rest
  | '\r' :: '\n' :: rest => skipLayout rest
  | text => text

theorem length_skipLayout_le (text : List Char) :
    (skipLayout text).length ≤ text.length := by
  fun_induction skipLayout text <;> simp_all <;> omega

/-- The text after a line end that a backslash hides, and after the layout of
the lines that follow. -/
def hiddenLineEnd? (text : List Char) : Option (List Char) :=
  (lineEnd? (skipBlanks text)).map skipLayout

theorem length_of_hiddenLineEnd?
    {text rest : List Char} (found : hiddenLineEnd? text = some rest) :
    rest.length < text.length := by
  obtain ⟨inner, innerFound, rfl⟩ := Option.map_eq_some_iff.1 found
  have first := length_of_lineEnd? innerFound
  have second := length_skipBlanks_le text
  have third := length_skipLayout_le inner
  omega

/-- A string with escapes on several lines, after its opening quotation marks
and the line end that may follow them.  It may end with one or two quotation
marks of its own. -/
def multilineBasic? (text : List Char) : Option (List Char × List Char) :=
  match text with
  | [] => none
  | '"' :: '"' :: '"' :: '"' :: '"' :: rest => some (['"', '"'], rest)
  | '"' :: '"' :: '"' :: '"' :: rest => some (['"'], rest)
  | '"' :: '"' :: '"' :: rest => some ([], rest)
  | '\r' :: '\n' :: rest =>
      (multilineBasic? rest).map fun split => ('\n' :: split.1, split.2)
  | '\\' :: rest =>
      match _hidden : hiddenLineEnd? rest with
      | some after => multilineBasic? after
      | none =>
          match _found : escape? rest with
          | none => none
          | some (character, after) =>
              (multilineBasic? after).map fun split => (character :: split.1, split.2)
  | character :: rest =>
      if isPlain character || character == '\n' then
        (multilineBasic? rest).map fun split => (character :: split.1, split.2)
      else
        none
termination_by text.length
decreasing_by
  · simp only [List.length_cons]
    omega
  · have := length_of_hiddenLineEnd? _hidden
    simp only [List.length_cons]
    omega
  · have := length_of_escape? _found
    simp only [List.length_cons]
    omega
  · simp only [List.length_cons]
    omega

/-- A string without escapes on several lines, after its opening apostrophes
and the line end that may follow them. -/
def multilineLiteral? : List Char → Option (List Char × List Char)
  | [] => none
  | '\'' :: '\'' :: '\'' :: '\'' :: '\'' :: rest => some (['\'', '\''], rest)
  | '\'' :: '\'' :: '\'' :: '\'' :: rest => some (['\''], rest)
  | '\'' :: '\'' :: '\'' :: rest => some ([], rest)
  | '\r' :: '\n' :: rest =>
      (multilineLiteral? rest).map fun split => ('\n' :: split.1, split.2)
  | character :: rest =>
      if isPlain character || character == '\n' then
        (multilineLiteral? rest).map fun split => (character :: split.1, split.2)
      else
        none

/-- The text after the line end at its front, if there is one. -/
def skipLineEnd (text : List Char) : List Char :=
  (lineEnd? text).getD text

/-- A string of any kind. -/
def string? : Read String
  | '"' :: '"' :: '"' :: rest =>
      (multilineBasic? (skipLineEnd rest)).map (·.map String.ofList id)
  | '"' :: rest => (basicString? rest).map (·.map String.ofList id)
  | '\'' :: '\'' :: '\'' :: rest =>
      (multilineLiteral? (skipLineEnd rest)).map (·.map String.ofList id)
  | '\'' :: rest => (literalString? rest).map (·.map String.ofList id)
  | _ => none

/-- The characters of a key without quotes. -/
def isBareKeyPart (character : Char) : Bool :=
  character.isAlphanum || character == '_' || character == '-'

/-- Read one part of a key, with or without quotes. -/
def keyPart? : Read String
  | '"' :: rest => (basicString? rest).map (·.map String.ofList id)
  | '\'' :: rest => (literalString? rest).map (·.map String.ofList id)
  | text =>
      match text.takeWhile isBareKeyPart with
      | [] => none
      | part => some (String.ofList part, text.dropWhile isBareKeyPart)

/-- The parts of a key separated by points, of which there may be at most a
given number more than one.  Blanks may stand around each part. -/
def keyUpTo? : Nat → Read (List String)
  | bound, text => do
      let (part, after) ← keyPart? (skipBlanks text)
      match skipBlanks after, bound with
      | '.' :: rest, bound + 1 =>
          let (parts, rest) ← keyUpTo? bound rest
          return (part :: parts, rest)
      | '.' :: _, 0 => none
      | rest, _ => return ([part], rest)

/-- The greatest number of arrays, tables and parts of keys inside each other. -/
def nestingLimit : Nat := 79

/-- Read a key. -/
def key? : Read (List String) :=
  keyUpTo? (nestingLimit - 1)

end TarnBuild.Toml
