import TarnBuild.Data.Value

/-!
# JSON texts

Data is written as JSON in two layouts: on one line without spaces, or with
one item on each line, indented by two spaces for each level.  In a text, a
quotation mark, a backslash and the characters below the space are escaped,
and all other characters stand for themselves.
-/

namespace TarnBuild.Json

/-- The lower case hexadecimal digit of a number below sixteen. -/
def hexDigit (value : Nat) : Char :=
  if value < 10 then Char.ofNat ('0'.toNat + value)
  else Char.ofNat ('a'.toNat + (value - 10))

/-- How a character is written inside a text. -/
def escapeChar (character : Char) : List Char :=
  match character with
  | '"' => ['\\', '"']
  | '\\' => ['\\', '\\']
  | '\x08' => ['\\', 'b']
  | '\x0c' => ['\\', 'f']
  | '\n' => ['\\', 'n']
  | '\r' => ['\\', 'r']
  | '\t' => ['\\', 't']
  | _ =>
      if character.toNat < 0x20 then
        ['\\', 'u', '0', '0', hexDigit (character.toNat / 16),
          hexDigit (character.toNat % 16)]
      else
        [character]

/-- A text between quotation marks. -/
def quote (text : String) : String :=
  String.ofList ('"' :: text.toList.flatMap escapeChar ++ ['"'])

/-- Where the items of a list or table are put: all on one line, or each on a
line of its own at some depth. -/
inductive Layout where
  | compact
  | indented (depth : Nat)

namespace Layout

/-- The layout of the items inside a list or table. -/
def inner : Layout → Layout
  | compact => compact
  | indented depth => indented (depth + 1)

/-- What is written before an item, and before the closing of its list. -/
def lineStart : Layout → String
  | compact => ""
  | indented depth => "\n" ++ String.ofList (List.replicate (2 * depth) ' ')

/-- What is written between a key and its value. -/
def colon : Layout → String
  | compact => ":"
  | indented _ => ": "

end Layout

/-- Items between brackets, separated by commas. -/
def bracketed (layout : Layout) (opening closing : String) (items : List String) :
    String :=
  match items with
  | [] => opening ++ closing
  | items =>
      opening ++
        ",".intercalate (items.map (layout.inner.lineStart ++ ·)) ++
        layout.lineStart ++ closing

/-- The number that a decimal is, in scientific form, or null for one of the
values that are no number. -/
def writeDecimal : Decimal → String
  | .finite negative digits exponent =>
      (if negative then "-" else "") ++ toString digits ++ "e" ++ toString exponent
  | _ => "null"

mutual

/-- The text of a value in a layout.  Dates are written as texts. -/
def write (layout : Layout) : Value → String
  | .null => "null"
  | .boolean value => if value then "true" else "false"
  | .integer value => toString value
  | .decimal value => writeDecimal value
  | .text value => quote value
  | .date written => quote written
  | .list items => bracketed layout "[" "]" (writeItems layout.inner items)
  | .table fields => bracketed layout "\x7b" "\x7d" (writeFields layout.inner fields)

/-- The texts of the items of a list. -/
def writeItems (layout : Layout) : List Value → List String
  | [] => []
  | item :: rest => write layout item :: writeItems layout rest

/-- The texts of the entries of a table. -/
def writeFields (layout : Layout) : List (String × Value) → List String
  | [] => []
  | (name, value) :: rest =>
      (quote name ++ layout.colon ++ write layout value) :: writeFields layout rest

end

/-- The text of a value on one line, without spaces. -/
def compact (value : Value) : String :=
  write .compact value

/-- The text of a value with one item on each line. -/
def pretty (value : Value) : String :=
  write (.indented 0) value

end TarnBuild.Json
