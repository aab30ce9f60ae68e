import TarnBuild.Toml.Value

/-!
# Documents of TOML

A document is a list of lines: entries, headers of tables, headers of items in
an array of tables, and lines without content.  No key is given twice, a table
has at most one header, and dotted keys and headers do not extend each other's
tables.
-/

namespace TarnBuild.Toml

/-- How a table of a document came to be. -/
inductive Origin where
  /-- It has a header of its own, or is the document itself. -/
  | header
  /-- It was needed on the way to the header of another table. -/
  | way
  /-- It was needed on the way to a dotted key. -/
  | dotted
  deriving DecidableEq, Repr

mutual

/-- What a key of a document stands for. -/
inductive Entry where
  | value (value : Value)
  | table (table : Table)
  /-- The tables of an array, of which the last is still open. -/
  | tables (tables : List Table)

/-- A table while it is being read, with its entries in their order. -/
inductive Table where
  | mk (origin : Origin) (entries : List (String × Entry))

end

namespace Table

/-- How a table came to be there. -/
def origin : Table → Origin
  | mk origin _ => origin

/-- The entries of a table under their keys. -/
def entries : Table → List (String × Entry)
  | mk _ entries => entries

/-- The entry under a key. -/
def get? (table : Table) (name : String) : Option Entry :=
  table.entries.lookup name

/-- The table with an entry under a key, in its old place if it has one. -/
def set (table : Table) (name : String) (entry : Entry) : Table :=
  match table.get? name with
  | some _ =>
      mk table.origin <| table.entries.map fun other =>
        if other.1 = name then (name, entry) else other
  | none => mk table.origin (table.entries ++ [(name, entry)])

/-- The table without an entry under a key. -/
def erase (table : Table) (name : String) : Table :=
  mk table.origin (table.entries.filter (·.1 ≠ name))

/-- Whether a dotted key may go through a table of some origin. -/
def admits (viaDots : Bool) (table : Table) : Bool :=
  !viaDots || table.origin ≠ .header

/-- Change the table at the end of a path.  Missing tables on the way are made;
the way goes through the last table of an array. -/
def modify? (viaDots : Bool) (change : Table → Option Table) :
    List String → Table → Option Table
  | [], table => change table
  | name :: path, table =>
      match table.get? name with
      | none => do
          let made ← modify? viaDots change path
            (mk (if viaDots then .dotted else .way) [])
          return table.set name (.table made)
      | some (.value _) => none
      | some (.table inner) =>
          if inner.admits viaDots then do
            let changed ← modify? viaDots change path inner
            return table.set name (.table changed)
          else
            none
      | some (.tables inner) =>
          match inner.getLast? with
          | none => none
          | some last => do
              let changed ← modify? viaDots change path last
              return table.set name (.tables (inner.dropLast ++ [changed]))

/-- Put a value under a key that must be new.  After a dotted way the table must
be one that dotted keys made. -/
def putValue? (viaDots : Bool) (name : String) (value : Value) (table : Table) :
    Option Table :=
  if viaDots = (table.origin == .dotted) then
    match table.get? name with
    | some _ => none
    | none => some (table.set name (.value value))
  else
    none

/-- Give a table its header.  If it exists already it must have been made on the
way to another one, and it moves behind the other entries. -/
def open? (name : String) (table : Table) : Option Table :=
  match table.get? name with
  | none => some (table.set name (.table (mk .header [])))
  | some (.table (mk .way entries)) =>
      some ((table.erase name).set name (.table (mk .header entries)))
  | some _ => none

/-- Add a table to an array of tables. -/
def append? (name : String) (table : Table) : Option Table :=
  match table.get? name with
  | none => some (table.set name (.tables [mk .header []]))
  | some (.tables inner) => some (table.set name (.tables (inner ++ [mk .header []])))
  | some _ => none

end Table

mutual

/-- The data of an entry. -/
def Entry.toValue : Entry → Value
  | .value content => content
  | .table table => table.toValue
  | .tables tables => .list (tablesToValues tables)

/-- The data of a table. -/
def Table.toValue : Table → Value
  | .mk _ entries => .table (entriesToFields entries)

/-- The data of the tables of an array. -/
def tablesToValues : List Table → List Value
  | [] => []
  | table :: rest => table.toValue :: tablesToValues rest

/-- The data of the entries of a table, under their keys. -/
def entriesToFields : List (String × Entry) → List (String × Value)
  | [] => []
  | (name, entry) :: rest => (name, entry.toValue) :: entriesToFields rest

end

/-- A document while it is being read: the tables so far, and the path of the
table that is open. -/
structure Draft where
  root : Table
  path : List String

/-- The document before its first line. -/
def Draft.start : Draft := ⟨.mk .header [], []⟩

/-- The document with one more entry in the open table. -/
def Draft.putValue? (draft : Draft) (key : List String) (value : Value) :
    Option Draft := do
  let name ← key.getLast?
  let way := key.dropLast
  let viaDots := !way.isEmpty
  let enter := Table.modify? viaDots (Table.putValue? viaDots name value) way
  return { draft with root := ← Table.modify? false enter draft.path draft.root }

/-- The document with another table open. -/
def Draft.open? (isItem : Bool) (draft : Draft) (key : List String) :
    Option Draft := do
  let name ← key.getLast?
  let change := if isItem then Table.append? name else Table.open? name
  return ⟨← Table.modify? false change key.dropLast draft.root, key⟩

/-- What a line of a document holds. -/
inductive Line where
  | empty
  | entry (key : List String) (value : Value)
  | header (isItem : Bool) (key : List String)

/-- Read a header or an entry, up to the end of its value. -/
def content? : Read Line
  | '[' :: '[' :: rest => do
      let (key, rest) ← key? rest
      match rest with
      | ']' :: ']' :: rest => return (.header true key, rest)
      | _ => none
  | '[' :: rest => do
      let (key, rest) ← key? rest
      match rest with
      | ']' :: rest => return (.header false key, rest)
      | _ => none
  | text => do
      let (key, rest) ← key? text
      match rest with
      | '=' :: rest =>
          let (value, rest) ← value? (skipBlanks rest)
          return (.entry key value, rest)
      | _ => none

/-- The first line of a text, and the text after it. -/
def line? (text : List Char) : Option (Line × List Char) :=
  let front := skipBlanks text
  match skipComment front with
  | [] => some (.empty, [])
  | uncommented =>
      match lineEnd? uncommented with
      | some rest => some (.empty, rest)
      | none => do
          let (line, rest) ← content? front
          return (line, ← finishLine? rest)

/-- The document with one more line. -/
def Draft.add? (draft : Draft) : Line → Option Draft
  | .empty => some draft
  | .entry key value => draft.putValue? key value
  | .header isItem key => draft.open? isItem key

/-- The document after at most a given number of lines. -/
def linesUpTo? : Nat → Draft → List Char → Option Draft
  | _, draft, [] => some draft
  | 0, _, _ => none
  | bound + 1, draft, text => do
      let (line, rest) ← line? text
      linesUpTo? bound (← draft.add? line) rest

/-- The data that a document stands for.  A byte order mark may stand before it. -/
def parse? (text : List Char) : Option Value :=
  let body := match text with
    | '\ufeff' :: rest => rest
    | _ => text
  (linesUpTo? body.length Draft.start body).map (·.root.toValue)

end TarnBuild.Toml
