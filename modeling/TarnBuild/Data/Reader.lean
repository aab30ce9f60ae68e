import TarnBuild.Data.Value

/-!
# Reading data that contains itself

A reader says what a table stands for, given what each of its fields stands
for, and likewise for a list.  Reading a value applies it from the inside out,
once at each place, so a kind of data that contains itself is read by one
recursion over the value.
-/

namespace TarnBuild

/-- A value, with the item that it stands for and the list of items that it
stands for. -/
structure Reading (Item : Type) where
  value : Value
  item? : Option Item
  items? : Option (List Item)

/-- What tables and lists stand for. -/
structure Reader (Item : Type) where
  ofTable? : List (String × Reading Item) → Option Item
  ofList? : List (Reading Item) → Option Item

namespace Reader

variable {Item : Type}

/-- The reader of a record, which is a table or lists its fields by position. -/
def record (names : List String)
    (ofFields? : List (String × Reading Item) → Option Item) : Reader Item where
  ofTable? := ofFields?
  ofList? items := do ofFields? (← namedByPosition? names items)

mutual

/-- What a value stands for, read from the innermost tables and lists outwards. -/
def read (reader : Reader Item) : Value → Reading Item
  | .table fields => ⟨.table fields, reader.ofTable? (reader.readFields fields), none⟩
  | .list items =>
      let readings := reader.readItems items
      ⟨.list items, reader.ofList? readings, readings.mapM Reading.item?⟩
  | value => ⟨value, none, none⟩

/-- What the items of a list stand for. -/
def readItems (reader : Reader Item) : List Value → List (Reading Item)
  | [] => []
  | value :: rest => reader.read value :: reader.readItems rest

/-- What the fields of a table stand for, under their names. -/
def readFields (reader : Reader Item) :
    List (String × Value) → List (String × Reading Item)
  | [] => []
  | (name, value) :: rest => (name, reader.read value) :: reader.readFields rest

end

end Reader

end TarnBuild
