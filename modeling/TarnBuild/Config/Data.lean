import TarnBuild.Config.Basic
import TarnBuild.Config.Fault
import TarnBuild.Syntax.Data
import TarnBuild.Toml.Document

/-!
# Configurations as data

Configurations as structured data, in both directions, and from the text of a
TOML document.  Fields of a record are read in the order in which the data
gives them, so that the first fault in that order is reported; fields that are
missing come after all that are present.  Unknown fields are passed over.

JSON and TOML differ in two respects.  A list that gives the fields of a record
by position may have further items in TOML only, and a choice that is made by a
table leaves nothing under its word in JSON, and an empty table or list in TOML.
-/

namespace TarnBuild

/-- The texts that structured data can come from. -/
inductive DataFormat where
  | json
  | toml
  deriving DecidableEq, Repr

/-- A record as it is read: its name in messages and the names of its fields. -/
structure RecordShape where
  title : String
  fieldNames : List String

/-- The fields that a value gives of a record, and whether by position. -/
structure GivenFields where
  fields : List (String × Value)
  byPosition : Bool

namespace RecordShape

/-- The fields of a record that a value gives.  JSON takes no list that is
longer than the record. -/
def given (shape : RecordShape) (format : DataFormat) :
    Value → Except ShapeFault GivenFields
  | .table fields => .ok ⟨fields, false⟩
  | .date _ => .ok ⟨[], false⟩
  | .list items =>
      if format = .json ∧ shape.fieldNames.length < items.length then
        .error (.surplusItems items.length)
      else
        .ok ⟨shape.fieldNames.zip items, true⟩
  | value => .error (.wrongKind value shape.title)

/-- The fault of a record without one of its fields. -/
def missing (shape : RecordShape) (byPosition : Bool) (name : String) : ShapeFault :=
  if byPosition then
    .missingItem (shape.fieldNames.idxOf name) shape.title shape.fieldNames.length
  else
    .missingField name

end RecordShape

/-- A text, or the fault of another value. -/
def readText : Value → Except ShapeFault String
  | .text value => .ok value
  | value => .error (.wrongKind value "a string")

/-- A truth value, or the fault of another value. -/
def readBoolean : Value → Except ShapeFault Bool
  | .boolean value => .ok value
  | value => .error (.wrongKind value "a boolean")

/-- A list of items that are read one after the other, or a fault. -/
def readList {Item : Type} (read : Value → Except ShapeFault Item) :
    Value → Except ShapeFault (List Item)
  | .list items => items.mapM read
  | value => .error (.wrongKind value "a sequence")

/-- The field with a name, or a default, or a fault. -/
def readField {Item : Type} (given : GivenFields) (name : String)
    (read : Value → Except ShapeFault Item) (missing : Except ShapeFault Item) :
    Except ShapeFault Item :=
  match given.fields.lookup name with
  | some value => read value
  | none => missing

namespace Surface

/-- The surface with a word, or the fault of an unknown word. -/
def ofWord (word : String) : Except ShapeFault Surface :=
  if word = moduleSurface.word then .ok moduleSurface
  else if word = classSurface.word then .ok classSurface
  else .error (.unknownChoice word moduleSurface.word classSurface.word)

/-- Whether there is nothing under the word of a choice that is made by a table. -/
def isEmptyContent : DataFormat → Value → Bool
  | .json, .null => true
  | .toml, .table [] => true
  | .toml, .list [] => true
  | _, _ => false

/-- The surface that a value chooses, by a word or by a table with the word as
its only key. -/
def read (format : DataFormat) : Value → Except ShapeFault Surface
  | .text word => ofWord word
  | .table [(word, content)] => do
      let surface ← ofWord word
      if isEmptyContent format content then
        return surface
      else
        .error (.choiceWithContent content)
  | .table entries => .error (.manyChoices entries.length)
  | _ => .error .noChoice

end Surface

namespace HostType

/-- A host type as data, which is its name. -/
def toValue (type : HostType) : Value :=
  .text type.name

/-- The host type with the name that a value is. -/
def read (value : Value) : Except ShapeFault HostType :=
  (readText value).map ofText

end HostType

namespace RuntimeFunction

/-- A declared function as data, with all its fields. -/
def toValue (function : RuntimeFunction) : Value :=
  .table [("name", .text function.name), ("public", .boolean function.isPublic),
    ("external", .boolean function.isExternal),
    ("parameters", .list (function.parameters.map HostType.toValue)),
    ("returns", function.returns.toValue)]

/-- The record of a declared function. -/
def shape : RecordShape where
  title := "struct RuntimeFunction"
  fieldNames := ["name", "public", "external", "parameters", "returns"]

/-- Find the fault of one field, if it has one. -/
def checkField (name : String) (value : Value) : Except ShapeFault Unit :=
  match name with
  | "name" => discard (readText value)
  | "public" => discard (readBoolean value)
  | "external" => discard (readBoolean value)
  | "parameters" => discard (readList HostType.read value)
  | "returns" => discard (HostType.read value)
  | _ => .ok ()

/-- The declared function that a value is.  Its name and its result cannot be
left out. -/
def read (format : DataFormat) (value : Value) : Except ShapeFault RuntimeFunction := do
  let given ← shape.given format value
  given.fields.forM fun field => checkField field.1 field.2
  let missing (field : String) := shape.missing given.byPosition field
  let name ← readField given "name" readText (.error (missing "name"))
  let isPublic ← readField given "public" readBoolean (.ok true)
  let isExternal ← readField given "external" readBoolean (.ok true)
  let parameters ← readField given "parameters" (readList HostType.read) (.ok [])
  let returns ← readField given "returns" HostType.read (.error (missing "returns"))
  return { name, isPublic, isExternal, parameters, returns }

end RuntimeFunction

namespace BuildSettings

/-- Build settings as data, with all their fields. -/
def toValue (settings : BuildSettings) : Value :=
  .table [("extension", .text settings.extension), ("root_name", .text settings.rootName),
    ("surface", settings.surface.toValue), ("parallel", .boolean settings.parallel)]

/-- The record of build settings. -/
def shape : RecordShape where
  title := "struct BuildSettings"
  fieldNames := ["extension", "root_name", "surface", "parallel"]

/-- Find the fault of one field, if it has one. -/
def checkField (format : DataFormat) (name : String) (value : Value) :
    Except ShapeFault Unit :=
  match name with
  | "extension" => discard (readText value)
  | "root_name" => discard (readText value)
  | "surface" => discard (Surface.read format value)
  | "parallel" => discard (readBoolean value)
  | _ => .ok ()

/-- The build settings that a value is, where any field may be left out. -/
def read (format : DataFormat) (value : Value) : Except ShapeFault BuildSettings := do
  let defaults : BuildSettings := {}
  let given ← shape.given format value
  given.fields.forM fun field => checkField format field.1 field.2
  let extension ← readField given "extension" readText (.ok defaults.extension)
  let rootName ← readField given "root_name" readText (.ok defaults.rootName)
  let surface ← readField given "surface" (Surface.read format) (.ok defaults.surface)
  let parallel ← readField given "parallel" readBoolean (.ok defaults.parallel)
  return { extension, rootName, surface, parallel }

end BuildSettings

namespace RuntimeSettings

/-- What the host provides, as data. -/
def toValue (settings : RuntimeSettings) : Value :=
  .table [("functions", .list (settings.functions.map RuntimeFunction.toValue))]

/-- The record of what the host provides. -/
def shape : RecordShape where
  title := "struct RuntimeConfig"
  fieldNames := ["functions"]

/-- What the host provides according to a value. -/
def read (format : DataFormat) (value : Value) : Except ShapeFault RuntimeSettings := do
  let given ← shape.given format value
  let functions ←
    readField given "functions" (readList (RuntimeFunction.read format)) (.ok [])
  return { functions }

end RuntimeSettings

namespace BuildConfig

/-- A configuration as data, with both its parts. -/
def toValue (config : BuildConfig) : Value :=
  .table [("build", config.build.toValue), ("runtime", config.runtime.toValue)]

/-- The record of a configuration. -/
def shape : RecordShape where
  title := "struct BuildConfig"
  fieldNames := ["build", "runtime"]

/-- Find the fault of one field, if it has one. -/
def checkField (format : DataFormat) (name : String) (value : Value) :
    Except ShapeFault Unit :=
  match name with
  | "build" => discard (BuildSettings.read format value)
  | "runtime" => discard (RuntimeSettings.read format value)
  | _ => .ok ()

/-- The configuration that a value is, where either part may be left out. -/
def read (format : DataFormat) (value : Value) : Except ShapeFault BuildConfig := do
  let given ← shape.given format value
  given.fields.forM fun field => checkField format field.1 field.2
  let build ← readField given "build" (BuildSettings.read format) (.ok {})
  let runtime ← readField given "runtime" (RuntimeSettings.read format) (.ok {})
  return { build, runtime }

/-- Find the first fault in the settings of a configuration, if there is one. -/
def validate (config : BuildConfig) : Except ConfigFault Unit :=
  match Text.trimmed config.build.extension.toList with
  | [] => .error (.extension config.build.extension)
  | '.' :: _ => .error (.extension config.build.extension)
  | _ =>
      if (Text.trimmed config.build.rootName.toList).isEmpty then
        .error .blankRootName
      else
        .ok ()

/-- The configuration that a TOML document stands for, or a fault. -/
def ofToml (text : List Char) : Except ConfigFault BuildConfig :=
  match Toml.parse? text with
  | none => .error .malformed
  | some value =>
      match read .toml value with
      | .error fault => .error (.shape fault)
      | .ok config =>
          match config.validate with
          | .error fault => .error fault
          | .ok () => .ok config

end BuildConfig

end TarnBuild
