import TarnBuild.Data.Reader
import TarnBuild.Syntax.CompilationUnit

/-!
# Units as data

Types, constructs and units as structured data, in both directions.  A type is
a table whose field `kind` tells its form; all else is a record.  Empty lists
of type parameters and of type arguments and an absent annotation are left
out, and are understood where they are missing.  Unknown fields are passed
over.
-/

namespace TarnBuild

namespace Primitive

/-- A primitive type as data, which is its word. -/
def toValue (primitive : Primitive) : Value :=
  .text primitive.word

/-- The primitive types under their words. -/
def choices : List (String × Primitive) :=
  all.map fun primitive => (primitive.word, primitive)

/-- The primitive type that a value is. -/
def ofValue? : Value → Option Primitive :=
  Value.choice? choices

end Primitive

namespace Visibility

/-- The word for a visibility in data. -/
def word : Visibility → String
  | visible => "public"
  | hidden => "private"

/-- A visibility as data, which is its word. -/
def toValue (visibility : Visibility) : Value :=
  .text visibility.word

/-- The visibility that a value is. -/
def ofValue? : Value → Option Visibility :=
  Value.choice? [("public", visible), ("private", hidden)]

end Visibility

namespace ConstructKind

/-- A kind of construct as data, which is its word. -/
def toValue (kind : ConstructKind) : Value :=
  .text kind.word

/-- The kind of construct that a value is. -/
def ofValue? : Value → Option ConstructKind :=
  Value.choice? [("module", moduleKind), ("class", classKind)]

end ConstructKind

namespace Surface

/-- A surface as data, which is its word. -/
def toValue (surface : Surface) : Value :=
  .text surface.word

/-- The surface that a value is. -/
def ofValue? : Value → Option Surface :=
  Value.choice? [("module", moduleSurface), ("class", classSurface)]

end Surface

namespace TypeExpr

/-- The forms that a type can have. -/
inductive Form where
  | primitive
  | named
  | tuple
  | function
  deriving DecidableEq, Repr

namespace Form

/-- Every form, in the order by which forms are numbered. -/
def all : List Form := [primitive, named, tuple, function]

/-- The word for a form in data. -/
def word : Form → String
  | primitive => "primitive"
  | named => "named"
  | tuple => "tuple"
  | function => "function"

/-- The fields of a type of each form, in their order. -/
def fieldNames : Form → List String
  | primitive => ["primitive"]
  | named => ["name", "arguments"]
  | tuple => ["elements"]
  | function => ["parameters", "return_type"]

/-- The form that data names.  Inside another type its number does as well. -/
def ofValue? (inside : Bool) : Value → Option Form
  | .text word => all.find? (·.word == word)
  | .integer number => if inside && 0 ≤ number then all[number.toNat]? else none
  | _ => none

end Form

mutual

/-- A type as data: a table with its form and the fields of that form. -/
def toValue : TypeExpr → Value
  | primitive type =>
      .table [("kind", .text "primitive"), ("primitive", type.toValue)]
  | named name arguments =>
      .table <| [("kind", .text "named"), ("name", .text name)] ++
        optionalField "arguments" arguments.isEmpty (.list (toValues arguments))
  | tuple elements =>
      .table [("kind", .text "tuple"), ("elements", .list (toValues elements))]
  | function parameters result =>
      .table [("kind", .text "function"),
        ("parameters", .list (toValues parameters)),
        ("return_type", result.toValue)]

/-- Types as data, in their order. -/
def toValues : List TypeExpr → List Value
  | [] => []
  | type :: rest => type.toValue :: toValues rest

end

/-- The primitive type that data inside a type stands for.  Under the word of a
table there may also be an empty table. -/
def innerPrimitive? : Value → Option Primitive
  | .table [(word, .table [])] => Primitive.choices.lookup word
  | value => Primitive.ofValue? value

/-- The type of a form with the given fields. -/
def ofFields? (form : Form) (fields : List (String × Reading TypeExpr)) :
    Option TypeExpr :=
  match form with
  | .primitive => do
      let type ← fieldOr fields "primitive" (innerPrimitive? ·.value) none
      return .primitive type
  | .named => do
      let name ← fieldOr fields "name" (·.value.text?) none
      let arguments ← fieldOr fields "arguments" Reading.items? (some [])
      return .named name arguments
  | .tuple => do
      let elements ← fieldOr fields "elements" Reading.items? none
      return .tuple elements
  | .function => do
      let parameters ← fieldOr fields "parameters" Reading.items? none
      let result ← fieldOr fields "return_type" Reading.item? none
      return .function parameters result

/-- What tables and lists stand for as types, inside another type or not.  A
list gives the form and then the fields by position. -/
def reader (inside : Bool) : Reader TypeExpr where
  ofTable? fields := do
    let form ← fieldOr fields "kind" (Form.ofValue? inside ·.value) none
    ofFields? form fields
  ofList?
    | [] => none
    | first :: items => do
        let form ← Form.ofValue? inside first.value
        ofFields? form (← namedByPosition? form.fieldNames items)

/-- The type that a value is.  Only inside another type may a number stand for a
form. -/
def ofValue? : Value → Option TypeExpr
  | .table fields => (reader false).ofTable? ((reader true).readFields fields)
  | .list items => (reader false).ofList? ((reader true).readItems items)
  | _ => none

end TypeExpr

namespace Constant

/-- A constant as data, without the annotation if there is none. -/
def toValue (constant : Constant) : Value :=
  .table <|
    [("name", .text constant.name), ("visibility", constant.visibility.toValue)] ++
    (constant.annotation.map fun type => ("annotation", type.toValue)).toList ++
    [("value", .text constant.value)]

/-- The annotation that data stands for, which may be absent. -/
def annotationOfValue? : Value → Option (Option TypeExpr)
  | .null => some none
  | value => (TypeExpr.ofValue? value).map some

/-- The constant that a value is.  It is visible unless the data says otherwise. -/
def ofValue? (value : Value) : Option Constant := do
  let fields ← value.fields? ["name", "visibility", "annotation", "value"]
  let name ← fieldOr fields "name" Value.text? none
  let visibility ← fieldOr fields "visibility" Visibility.ofValue? (some .visible)
  let annotation ← fieldOr fields "annotation" annotationOfValue? (some none)
  let value ← fieldOr fields "value" Value.text? none
  return { name, visibility, annotation, value }

end Constant

namespace Parameter

/-- A parameter as data. -/
def toValue (parameter : Parameter) : Value :=
  .table [("name", .text parameter.name), ("annotation", parameter.annotation.toValue)]

/-- The parameter that a value is. -/
def ofValue? (value : Value) : Option Parameter := do
  let fields ← value.fields? ["name", "annotation"]
  let name ← fieldOr fields "name" Value.text? none
  let annotation ← fieldOr fields "annotation" TypeExpr.ofValue? none
  return { name, annotation }

end Parameter

namespace Function

/-- A function as data, without type parameters if there are none. -/
def toValue (function : Function) : Value :=
  .table <|
    [("name", .text function.name), ("visibility", function.visibility.toValue)] ++
    optionalField "type_parameters" function.typeParameters.isEmpty
      (.texts function.typeParameters) ++
    [("parameters", .list (function.parameters.map Parameter.toValue)),
      ("return_type", function.result.toValue),
      ("body", .text function.body)]

/-- The function that a value is.  It is visible unless the data says otherwise. -/
def ofValue? (value : Value) : Option Function := do
  let fields ← value.fields?
    ["name", "visibility", "type_parameters", "parameters", "return_type", "body"]
  let name ← fieldOr fields "name" Value.text? none
  let visibility ← fieldOr fields "visibility" Visibility.ofValue? (some .visible)
  let typeParameters ← fieldOr fields "type_parameters" Value.texts? (some [])
  let parameters ←
    fieldOr fields "parameters" (Value.listOf? Parameter.ofValue?) none
  let result ← fieldOr fields "return_type" TypeExpr.ofValue? none
  let body ← fieldOr fields "body" Value.text? none
  return { name, visibility, typeParameters, parameters, result, body }

end Function

namespace Construct

mutual

/-- A construct as data, with the data of the constructs inside it. -/
def toValue : Construct → Value
  | ⟨name, kind, typeParameters, constants, functions, nested⟩ =>
      .table <|
        [("name", .text name), ("kind", kind.toValue)] ++
        optionalField "type_parameters" typeParameters.isEmpty
          (.texts typeParameters) ++
        [("constants", .list (constants.map Constant.toValue)),
          ("functions", .list (functions.map Function.toValue)),
          ("nested", .list (toValues nested))]

/-- Constructs as data, in their order. -/
def toValues : List Construct → List Value
  | [] => []
  | construct :: rest => construct.toValue :: toValues rest

end

/-- The construct with the given fields. -/
def ofFields? (fields : List (String × Reading Construct)) : Option Construct := do
  let name ← fieldOr fields "name" (·.value.text?) none
  let kind ← fieldOr fields "kind" (ConstructKind.ofValue? ·.value) none
  let typeParameters ← fieldOr fields "type_parameters" (·.value.texts?) (some [])
  let constants ←
    fieldOr fields "constants" (·.value.listOf? Constant.ofValue?) (some [])
  let functions ←
    fieldOr fields "functions" (·.value.listOf? Function.ofValue?) (some [])
  let nested ← fieldOr fields "nested" Reading.items? (some [])
  return { name, kind, typeParameters, constants, functions, nested }

/-- What tables and lists stand for as constructs. -/
def reader : Reader Construct :=
  .record ["name", "kind", "type_parameters", "constants", "functions", "nested"]
    ofFields?

/-- The construct that a value is. -/
def ofValue? (value : Value) : Option Construct :=
  (reader.read value).item?

end Construct

namespace CompilationUnit

/-- A unit as data. -/
def toValue (unit : CompilationUnit) : Value :=
  .table [("imports", .texts unit.imports.toList), ("body", unit.body.toValue)]

/-- The unit that a value is.  Its imports may come in any order and more than
once. -/
def ofValue? (value : Value) : Option CompilationUnit := do
  let fields ← value.fields? ["imports", "body"]
  let imports ← fieldOr fields "imports" Value.texts? none
  let body ← fieldOr fields "body" Construct.ofValue? none
  return ⟨NameSet.ofList imports, body⟩

end CompilationUnit

end TarnBuild
