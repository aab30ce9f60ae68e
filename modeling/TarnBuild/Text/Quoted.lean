import TarnBuild.Text.Printable

/-!
# Quoted texts

A quoted text stands between quotation marks and shows every character: a
quotation mark and a backslash after a backslash, the most usual control
characters by a letter, and all other characters that are not printable by
their number.
-/

namespace TarnBuild.Text

/-- Which characters are written after a backslash besides the ones that every
quoted text writes so. -/
structure QuoteStyle where
  apostrophe : Bool

/-- The hexadecimal digits of a number, in lower case. -/
def hexDigits (value : Nat) : List Char :=
  Nat.toDigits 16 value

/-- How a character is shown between quotation marks. -/
def QuoteStyle.showChar (style : QuoteStyle) (character : Char) : List Char :=
  match character with
  | '\x00' => ['\\', '0']
  | '\t' => ['\\', 't']
  | '\r' => ['\\', 'r']
  | '\n' => ['\\', 'n']
  | '\\' => ['\\', '\\']
  | '"' => ['\\', '"']
  | '\'' => if style.apostrophe then ['\\', '\''] else ['\'']
  | _ =>
      if isPrintable character then
        [character]
      else
        ['\\', 'u', '\x7b'] ++ hexDigits character.toNat ++ ['\x7d']

/-- A text between quotation marks, in a style. -/
def QuoteStyle.quote (style : QuoteStyle) (text : String) : String :=
  String.ofList ('"' :: text.toList.flatMap style.showChar ++ ['"'])

/-- A text between quotation marks. -/
def quoted (text : String) : String :=
  QuoteStyle.quote ⟨false⟩ text

/-- A path between quotation marks, which also marks apostrophes. -/
def quotedPath (path : String) : String :=
  QuoteStyle.quote ⟨true⟩ path

end TarnBuild.Text
