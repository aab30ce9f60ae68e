import TarnBuild.Toml.Number

/-!
# Values of TOML

A value is a string, a boolean, a number, a date, an array, or a table on one
line.  Arrays and tables may stand inside each other up to a limit.
-/

namespace TarnBuild.Toml

/-- A table while it is being written: its entries in order, and whether it was
made only as the way to a dotted key. -/
inductive Inline where
  | value (value : Value)
  | dotted (entries : List (String × Inline))

mutual

/-- The data that an entry of a table on one line stands for. -/
def Inline.toValue : Inline → Value
  | .value content => content
  | .dotted entries => .table (Inline.toFields entries)

/-- The data that the entries of a table on one line stand for. -/
def Inline.toFields : List (String × Inline) → List (String × Value)
  | [] => []
  | (name, entry) :: rest => (name, entry.toValue) :: Inline.toFields rest

end

/-- Put a value under a dotted key.  The key must be new, and the tables on the
way to it must have been made by dotted keys. -/
def Inline.put? (value : Value) : List String → List (String × Inline) →
    Option (List (String × Inline))
  | [], _ => none
  | [name], entries =>
      match entries.lookup name with
      | some _ => none
      | none => some (entries ++ [(name, .value value)])
  | name :: next :: path, entries =>
      match entries.lookup name with
      | some (.value _) => none
      | some (.dotted inner) => do
          let changed ← put? value (next :: path) inner
          return entries.map fun entry =>
            if entry.1 = name then (name, .dotted changed) else entry
      | none => do
          let made ← put? value (next :: path) []
          return entries ++ [(name, .dotted made)]

/-- Read a truth value. -/
def word? : Read Value
  | 't' :: 'r' :: 'u' :: 'e' :: rest => some (.boolean true, rest)
  | 'f' :: 'a' :: 'l' :: 's' :: 'e' :: rest => some (.boolean false, rest)
  | _ => none

/-- The items of an array up to its closing bracket, of which there may be at
most a given number.  A comma may stand after the last one. -/
def items? (item? : Read Value) : Nat → Read (List Value)
  | bound, text =>
      match skipLines text, bound with
      | ']' :: rest, _ => some ([], rest)
      | _, 0 => none
      | front, bound + 1 => do
          let (first, after) ← item? front
          match skipLines after with
          | ',' :: rest =>
              let (others, rest) ← items? item? bound rest
              return (first :: others, rest)
          | ']' :: rest => return ([first], rest)
          | _ => none

/-- The entries of a table on one line up to its closing brace, of which there
may be at most one more than a given number. -/
def entries? (item? : Read Value) : Nat → List (String × Inline) →
    Read (List (String × Inline))
  | bound, before, text => do
      let (path, after) ← key? text
      match after with
      | '=' :: rest =>
          let (value, rest) ← item? (skipBlanks rest)
          let entries ← Inline.put? value path before
          match skipBlanks rest, bound with
          | ',' :: rest, bound + 1 => entries? item? bound entries rest
          | '\x7d' :: rest, _ => return (entries, rest)
          | _, _ => none
      | _ => none

/-- A value with at most a given number of arrays and tables inside each other. -/
def valueUpTo? : Nat → Read Value
  | depth, text =>
      match text, depth with
      | '[' :: rest, depth + 1 =>
          (items? (valueUpTo? depth) rest.length rest).map (·.map .list id)
      | '\x7b' :: rest, depth + 1 =>
          match skipBlanks rest with
          | '\x7d' :: rest => some (.table [], rest)
          | front =>
              (entries? (valueUpTo? depth) front.length [] front).map
                (·.map (fun entries => .table (Inline.toFields entries)) id)
      | text, _ =>
          match string? text with
          | some (content, rest) => some (.text content, rest)
          | none =>
              match word? text with
              | some found => some found
              | none =>
                  match date text with
                  | some found => some found
                  | none => number? text

/-- Read a value. -/
def value? : Read Value :=
  valueUpTo? nestingLimit

end TarnBuild.Toml
