/-!
# Structured data

The common form of data that is read from, or written to, a structured text
such as JSON or TOML.  A table keeps its entries in the order in which the
text gives them.
-/

namespace TarnBuild

/-- A number with a fractional part, as a text gives it: digits that count
units of a power of ten, or one of the values that are no number. -/
inductive Decimal where
  | finite (negative : Bool) (digits : Nat) (exponent : Int)
  | infinite (negative : Bool)
  | notANumber
  deriving DecidableEq, Repr

/-- Structured data. -/
inductive Value where
  | null
  | boolean (value : Bool)
  | integer (value : Int)
  | decimal (value : Decimal)
  | text (value : String)
  /-- A date or a time, as it is written. -/
  | date (written : String)
  | list (items : List Value)
  | table (fields : List (String × Value))
  deriving Repr, BEq

namespace Value

instance : Inhabited Value := ⟨null⟩

/-- A list of texts. -/
def texts (items : List String) : Value :=
  list (items.map text)

/-- The text that a value is. -/
def text? : Value → Option String
  | text value => some value
  | _ => none

/-- The items of a list. -/
def list? : Value → Option (List Value)
  | list items => some items
  | _ => none

/-- The list that a value is, if each of its items can be read. -/
def listOf? {Item : Type} (read? : Value → Option Item) (value : Value) :
    Option (List Item) := do
  (← value.list?).mapM read?

/-- The texts of a list that holds nothing else. -/
def texts? : Value → Option (List String) :=
  listOf? text?

/-- The choice that a value makes among some words: the value is the word
itself, or a table with the word as its only key and nothing under it. -/
def choice? {Choice : Type} (choices : List (String × Choice)) :
    Value → Option Choice
  | text word => choices.lookup word
  | table [(word, null)] => choices.lookup word
  | _ => none

end Value

/-- The first field with a name, read by a function, or what stands for it when
it is missing. -/
def fieldOr {Field Item : Type} (fields : List (String × Field)) (name : String)
    (read? : Field → Option Item) (missing : Option Item) : Option Item :=
  match fields.lookup name with
  | some field => read? field
  | none => missing

/-- A field that is left out when there is nothing to say. -/
def optionalField (name : String) (omitted : Bool) (value : Value) :
    List (String × Value) :=
  if omitted then [] else [(name, value)]

/-- The fields that are given by position: the items of a list under some
names.  The last names may lack an item, but each item needs a name. -/
def namedByPosition? {Field : Type} (names : List String) (items : List Field) :
    Option (List (String × Field)) :=
  if items.length ≤ names.length then some (names.zip items) else none

/-- The fields of a record, which is a table or lists its fields by position. -/
def Value.fields? (names : List String) : Value → Option (List (String × Value))
  | table fields => some fields
  | list items => namedByPosition? names items
  | _ => none

end TarnBuild
