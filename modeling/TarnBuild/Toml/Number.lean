import TarnBuild.Data.Value
import TarnBuild.Toml.Text

/-!
# Numbers and dates of TOML

Integers, decimals, dates and times.  Single underscores may stand between the
digits of a number.  An integer must fit into 64 bits with a sign.
-/

namespace TarnBuild.Toml

/-- The digits at the front of a text, after the first of them, without the
underscores between them. -/
def digitTail (isDigit : Char → Bool) : List Char → List Char × List Char
  | [] => ([], [])
  | '_' :: digit :: rest =>
      if isDigit digit then
        let split := digitTail isDigit rest
        (digit :: split.1, split.2)
      else
        ([], '_' :: digit :: rest)
  | digit :: rest =>
      if isDigit digit then
        let split := digitTail isDigit rest
        (digit :: split.1, split.2)
      else
        ([], digit :: rest)

/-- One or more digits. -/
def digits? (isDigit : Char → Bool) : Read (List Char)
  | digit :: rest =>
      if isDigit digit then
        let split := digitTail isDigit rest
        some (digit :: split.1, split.2)
      else
        none
  | [] => none

/-- The number that some digits write to a base. -/
def number (base : Nat) (digits : List Char) : Nat :=
  digits.foldl (fun total digit => total * base + (hexDigit? digit).getD 0) 0

/-- One or more decimal digits, of which the first is zero only if it is alone. -/
def wholeDigits? : Read (List Char)
  | '0' :: rest => some (['0'], rest)
  | text => digits? Char.isDigit text

/-- The integer, if it fits into 64 bits with a sign. -/
def boundedInteger? (value : Int) : Option Value :=
  if -9223372036854775808 ≤ value && value ≤ 9223372036854775807 then
    some (.integer value)
  else
    none

/-- An optional sign: whether it is a minus. -/
def sign : List Char → Bool × List Char
  | '-' :: rest => (true, rest)
  | '+' :: rest => (false, rest)
  | text => (false, text)

/-- The fraction at the front of a text, or no digits if there is none. -/
def fraction? : Read (List Char)
  | '.' :: rest => digits? Char.isDigit rest
  | text => some ([], text)

/-- The exponent at the front of a text, or nothing if there is none. -/
def exponent? (text : List Char) : Option (Option Int × List Char) :=
  match text with
  | letter :: rest =>
      if letter == 'e' || letter == 'E' then do
        let (negative, rest) := sign rest
        let (digits, rest) ← digits? Char.isDigit rest
        let size : Int := number 10 digits
        return (some (if negative then -size else size), rest)
      else
        some (none, text)
  | [] => some (none, [])

/-- Whether a decimal is too large for a binary number of 64 bits.  Half a unit
beyond the greatest such number counts as too large. -/
def tooLarge (digits : Nat) (exponent : Int) : Bool :=
  let bound := (Nat.pow 2 54 - 1) * Nat.pow 2 970
  if digits = 0 then false
  else if 0 ≤ exponent then
    310 < exponent || bound ≤ digits * Nat.pow 10 exponent.toNat
  else
    bound * Nat.pow 10 (min (-exponent).toNat (Nat.log2 digits + 1)) ≤ digits

/-- A decimal number after its sign, given the digits before the point.  A
positive one must not be too large; a negative one is then infinite. -/
def decimal? (negative : Bool) (whole : List Char) : Read Value := fun text => do
  let (places, rest) ← fraction? text
  let (exponent, rest) ← exponent? rest
  if places.isEmpty && exponent.isNone then
    none
  else
    let digits := number 10 (whole ++ places)
    let scale := exponent.getD 0 - places.length
    if tooLarge digits scale then
      if negative then return (.decimal (.infinite true), rest) else none
    else
      return (.decimal (.finite negative digits scale), rest)

/-- An integer with a base other than ten, after the letter for the base. -/
def basedInteger? (base : Nat) (isDigit : Char → Bool) : Read Value := fun text => do
  let (digits, rest) ← digits? isDigit text
  return (← boundedInteger? (number base digits), rest)

/-- A number without a sign that starts with the letter of a base, or a number
of any other form. -/
def number? : Read Value
  | '0' :: 'x' :: rest => basedInteger? 16 (fun digit => (hexDigit? digit).isSome) rest
  | '0' :: 'o' :: rest => basedInteger? 8 (fun digit => '0' ≤ digit && digit ≤ '7') rest
  | '0' :: 'b' :: rest => basedInteger? 2 (fun digit => digit == '0' || digit == '1') rest
  | text => do
      let (negative, unsigned) := sign text
      match unsigned with
      | 'i' :: 'n' :: 'f' :: rest => return (.decimal (.infinite negative), rest)
      | 'n' :: 'a' :: 'n' :: rest => return (.decimal .notANumber, rest)
      | _ =>
          let (whole, rest) ← wholeDigits? unsigned
          match decimal? negative whole rest with
          | some found => return found
          | none =>
              let size : Int := number 10 whole
              return (← boundedInteger? (if negative then -size else size), rest)

/-- A number of exactly so many decimal digits, within bounds. -/
def field? (width least greatest : Nat) : Read Nat := fun text =>
  let digits := text.take width
  let value := number 10 digits
  if digits.length = width && digits.all Char.isDigit && least ≤ value &&
      value ≤ greatest then
    some (value, text.drop width)
  else
    none

/-- The text after a character that must stand at its front. -/
def pass? (character : Char) : List Char → Option (List Char)
  | first :: rest => if first = character then some rest else none
  | [] => none

/-- The number of days in a month of a year. -/
def daysIn (year month : Nat) : Nat :=
  if month = 2 then
    if year % 4 = 0 && (year % 100 ≠ 0 || year % 400 = 0) then 29 else 28
  else if month = 4 || month = 6 || month = 9 || month = 11 then 30
  else 31

/-- The text after a date. -/
def date? (text : List Char) : Option (List Char) := do
  let (year, rest) ← field? 4 0 9999 text
  let rest ← pass? '-' rest
  let (month, rest) ← field? 2 1 12 rest
  let rest ← pass? '-' rest
  let (_, rest) ← field? 2 1 (daysIn year month) rest
  return rest

/-- The text after a time of day, with or without a fraction of a second. -/
def time? (text : List Char) : Option (List Char) := do
  let (_, rest) ← field? 2 0 23 text
  let rest ← pass? ':' rest
  let (_, rest) ← field? 2 0 59 rest
  let rest ← pass? ':' rest
  let (_, rest) ← field? 2 0 60 rest
  match rest with
  | '.' :: digit :: after =>
      if digit.isDigit then return after.dropWhile Char.isDigit else none
  | _ => return rest

/-- The text after the offset of a time zone, if one stands at its front. -/
def zone (text : List Char) : Option (List Char) :=
  match text with
  | [] => some []
  | mark :: rest =>
      if mark == 'Z' || mark == 'z' then some rest
      else if mark == '+' || mark == '-' then do
        let (_, rest) ← field? 2 0 23 rest
        let rest ← pass? ':' rest
        let (_, rest) ← field? 2 0 59 rest
        return rest
      else some text

/-- The text after the time that may follow a date. -/
def timeAfterDate (text : List Char) : List Char :=
  match text with
  | [] => []
  | separator :: rest =>
      if separator == 'T' || separator == 't' || separator == ' ' then
        ((time? rest).bind zone).getD text
      else
        text

/-- The text after a date, a time, or both. -/
def moment? (text : List Char) : Option (List Char) :=
  match date? text with
  | some rest => some (timeAfterDate rest)
  | none => time? text

/-- A date, a time, or both, kept as it is written. -/
def date (text : List Char) : Option (Value × List Char) := do
  let rest ← moment? text
  return (.date (String.ofList (text.take (text.length - rest.length))), rest)

end TarnBuild.Toml
