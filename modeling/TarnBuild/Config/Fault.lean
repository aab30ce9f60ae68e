import TarnBuild.Data.Shortest
import TarnBuild.Text.Quoted

/-!
# Faults in a configuration

What can be wrong with the text of a configuration, with the shape of the data
in it, and with its settings, and the wording of the message for each.
-/

namespace TarnBuild

/-- Why data does not have the shape that a configuration needs. -/
inductive ShapeFault where
  /-- The data is of another kind than expected. -/
  | wrongKind (found : Value) (expected : String)
  /-- A table lacks a field. -/
  | missingField (name : String)
  /-- A list that gives fields by position ends before a field is given. -/
  | missingItem (index : Nat) (expected : String) (count : Nat)
  /-- A list gives more items than there are fields. -/
  | surplusItems (count : Nat)
  /-- A word is none of two choices. -/
  | unknownChoice (word first second : String)
  /-- A choice is made neither by a word nor by a table. -/
  | noChoice
  /-- A choice is made by a table that has not exactly one entry. -/
  | manyChoices (count : Nat)
  /-- There is something under the word of a choice that is made by a table. -/
  | choiceWithContent (content : Value)
  deriving Repr

/-- How messages speak of data that is found in the wrong place. -/
def Value.describe : Value → String
  | null => "null"
  | boolean value => "boolean \x60" ++ (if value then "true" else "false") ++ "\x60"
  | integer value => "integer \x60" ++ toString value ++ "\x60"
  | decimal value => "floating point \x60" ++ value.display ++ "\x60"
  | text value => "string " ++ Text.quoted value
  | date _ => "map"
  | list _ => "sequence"
  | table _ => "map"

/-- The name of the kind of data where a table is expected. -/
def Value.kindName : Value → String
  | null => "none"
  | boolean _ => "boolean"
  | integer _ => "integer"
  | decimal _ => "float"
  | text _ => "string"
  | date _ => "datetime"
  | list _ => "array"
  | table _ => "table"

/-- The wording of a fault in the shape of data. -/
def ShapeFault.message : ShapeFault → String
  | wrongKind found expected =>
      "invalid type: " ++ found.describe ++ ", expected " ++ expected
  | missingField name => "missing field \x60" ++ name ++ "\x60"
  | missingItem index expected count =>
      "invalid length " ++ toString index ++ ", expected " ++ expected ++ " with " ++
        toString count ++ (if count = 1 then " element" else " elements")
  | surplusItems count =>
      "invalid length " ++ toString count ++ ", expected fewer elements in array"
  | unknownChoice word first second =>
      "unknown variant \x60" ++ word ++ "\x60, expected \x60" ++ first ++
        "\x60 or \x60" ++ second ++ "\x60"
  | noChoice => "wanted string or table"
  | manyChoices count =>
      if count = 0 then
        "wanted exactly 1 element, found 0 elements"
      else
        "wanted exactly 1 element, more than 1 element"
  | choiceWithContent content =>
      match content with
      | .list _ => "expected empty array"
      | .table _ => "expected empty table"
      | _ => "expected table, found " ++ content.kindName

/-- What can be wrong with a configuration. -/
inductive ConfigFault where
  /-- The text is no TOML document. -/
  | malformed
  /-- The data does not have the shape of a configuration. -/
  | shape (fault : ShapeFault)
  /-- The extension is blank, or its first character that is not blank is a dot. -/
  | extension (extension : String)
  | blankRootName
  | inFile (path : String) (fault : ConfigFault)
  deriving Repr

/-- What every message about a configuration starts with. -/
def configHeading : String := "Configuration error: "

/-- The wording of a configuration fault, without the heading. -/
def ConfigFault.message : ConfigFault → String
  | malformed => "TOML parse error"
  | shape fault => fault.message
  | extension given =>
      "extension must be a bare file extension, got '" ++ given ++ "'"
  | blankRootName => "root_name must not be empty"
  | inFile path fault => path ++ ": " ++ configHeading ++ fault.message

end TarnBuild
