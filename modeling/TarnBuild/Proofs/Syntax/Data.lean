import TarnBuild.Syntax.Data

/-!
# Units read back from their data

What is written as data is read back as it was: every type, every construct
and every unit.  Lists that are left out because they are empty, and an
annotation that is left out because there is none, are understood where they
are missing.

Types and constructs contain themselves, so their readers go over data from the
inside out.  That they read back what was written is shown together for one
item and for a list of items.
-/

namespace TarnBuild

variable {Item Field : Type}

/-! ## Fields and lists -/

/-- The first field is the one that is looked for, or stands before it. -/
@[simp]
theorem fieldOr_cons
    (given name : String) (field : Field) (rest : List (String × Field))
    (read? : Field → Option Item) (missing : Option Item) :
    fieldOr ((given, field) :: rest) name read? missing =
      if name = given then read? field else fieldOr rest name read? missing := by
  by_cases same : name = given
  · simp [fieldOr, same]
  · simp [fieldOr, List.lookup_cons, same, beq_eq_false_iff_ne.2 same]

@[simp]
theorem fieldOr_nil
    (name : String) (read? : Field → Option Item) (missing : Option Item) :
    fieldOr [] name read? missing = missing := rfl

namespace Value

@[simp]
theorem text?_text (text : String) : (Value.text text).text? = some text := rfl

@[simp]
theorem fields?_table (names : List String) (fields : List (String × Value)) :
    (table fields).fields? names = some fields := rfl

/-- Items that are each read back are read back as a list. -/
theorem listOf?_list_map
    {write : Item → Value} {read? : Value → Option Item}
    (readBack : ∀ item, read? (write item) = some item)
    (items : List Item) :
    (list (items.map write)).listOf? read? = some items := by
  show (items.map write).mapM read? = some items
  induction items with
  | nil => rfl
  | cons item rest ih => rw [List.map_cons, List.mapM_cons, readBack, ih]; rfl

@[simp]
theorem texts?_texts (items : List String) : (texts items).texts? = some items :=
  listOf?_list_map text?_text items

/-- The field of a table with a name. -/
def field? (name : String) : Value → Option Value
  | table fields => fields.lookup name
  | _ => none

@[simp]
theorem field?_table_nil (name : String) : (table []).field? name = none := rfl

@[simp]
theorem field?_table_cons
    (given name : String) (value : Value) (rest : List (String × Value)) :
    (table ((given, value) :: rest)).field? name =
      if name = given then some value else (table rest).field? name := by
  by_cases same : name = given
  · simp [field?, same]
  · simp [field?, List.lookup_cons, same, beq_eq_false_iff_ne.2 same]

end Value

namespace Reader

variable (reader : Reader Item)

@[simp]
theorem value_read (value : Value) : (reader.read value).value = value := by
  cases value <;> rfl

@[simp]
theorem item?_read_table (fields : List (String × Value)) :
    (reader.read (.table fields)).item? = reader.ofTable? (reader.readFields fields) := rfl

@[simp]
theorem items?_read_list (items : List Value) :
    (reader.read (.list items)).items? = (reader.readItems items).mapM Reading.item? := rfl

end Reader

/-! ## Words -/

@[simp]
theorem Visibility.ofValue?_toValue (visibility : Visibility) :
    ofValue? visibility.toValue = some visibility := by
  cases visibility <;> rfl

@[simp]
theorem ConstructKind.ofValue?_toValue (kind : ConstructKind) :
    ofValue? kind.toValue = some kind := by
  cases kind <;> rfl

/-! ## Types -/

namespace TypeExpr

@[simp]
theorem innerPrimitive?_toValue (primitive : Primitive) :
    innerPrimitive? primitive.toValue = some primitive := by
  cases primitive <;> rfl

/-- The form of a type. -/
def form : TypeExpr → Form
  | primitive _ => .primitive
  | named _ _ => .named
  | tuple _ => .tuple
  | function _ _ => .function

/-- The tag of a type is the word for its form. -/
theorem field?_kind_toValue (type : TypeExpr) :
    type.toValue.field? "kind" = some (.text type.form.word) := by
  cases type <;> simp [toValue, form, Form.word]

theorem Form.ofValue?_word (inside : Bool) (form : Form) :
    ofValue? inside (.text form.word) = some form := by
  cases form <;> rfl

/-- The form that stands first in a table decides how the table is read. -/
theorem ofTable?_cons_kind
    (inside : Bool) (form : Form) (fields : List (String × Value)) :
    (reader inside).ofTable? ((reader true).readFields (("kind", .text form.word) :: fields)) =
      ofFields? form ((reader true).readFields (("kind", .text form.word) :: fields)) := by
  have isForm : fieldOr ((reader true).readFields (("kind", .text form.word) :: fields)) "kind"
      (Form.ofValue? inside ·.value) none = some form := by
    simp [Reader.readFields, Form.ofValue?_word]
  exact congrArg (· >>= _) isForm

mutual

/-- A type is written as a table that stands for it, inside another type or not. -/
theorem exists_fields (inside : Bool) : (type : TypeExpr) →
    ∃ fields, type.toValue = .table fields ∧
      (reader inside).ofTable? ((reader true).readFields fields) = some type
  | primitive type => by
      refine ⟨_, rfl, (ofTable?_cons_kind inside .primitive _).trans ?_⟩
      simp [ofFields?, Reader.readFields]
  | named name [] => by
      refine ⟨_, rfl, (ofTable?_cons_kind inside .named _).trans ?_⟩
      simp [ofFields?, Reader.readFields, optionalField]
  | named name (first :: others) => by
      have readBack := mapM_item?_readItems (first :: others)
      refine ⟨_, rfl, (ofTable?_cons_kind inside .named _).trans ?_⟩
      simp [ofFields?, Reader.readFields, optionalField, readBack]
  | tuple elements => by
      have readBack := mapM_item?_readItems elements
      refine ⟨_, rfl, (ofTable?_cons_kind inside .tuple _).trans ?_⟩
      simp [ofFields?, Reader.readFields, readBack]
  | function parameters result => by
      have readBack := mapM_item?_readItems parameters
      rcases exists_fields true result with ⟨fields, isTable, resultBack⟩
      refine ⟨_, rfl, (ofTable?_cons_kind inside .function _).trans ?_⟩
      simp [ofFields?, Reader.readFields, readBack, isTable, resultBack]

/-- Types inside a type are read back in their order. -/
theorem mapM_item?_readItems : (types : List TypeExpr) →
    ((reader true).readItems (toValues types)).mapM Reading.item? = some types
  | [] => rfl
  | type :: rest => by
      rcases exists_fields true type with ⟨fields, isTable, readBack⟩
      rw [toValues, Reader.readItems, List.mapM_cons, mapM_item?_readItems rest, isTable,
        Reader.item?_read_table, readBack]
      rfl

end

@[simp]
theorem ofValue?_toValue (type : TypeExpr) : ofValue? type.toValue = some type := by
  rcases exists_fields false type with ⟨fields, isTable, readBack⟩
  rw [isTable]
  exact readBack

end TypeExpr

/-! ## Constants and functions -/

namespace Constant

@[simp]
theorem annotationOfValue?_toValue (type : TypeExpr) :
    annotationOfValue? type.toValue = some (some type) := by
  rcases TypeExpr.exists_fields false type with ⟨fields, isTable, _⟩
  have readBack := TypeExpr.ofValue?_toValue type
  rw [isTable] at readBack ⊢
  exact congrArg (Option.map some) readBack

@[simp]
theorem ofValue?_toValue (constant : Constant) : ofValue? constant.toValue = some constant := by
  rcases constant with ⟨name, visibility, _ | type, value⟩ <;> simp [ofValue?, toValue]

end Constant

namespace Parameter

@[simp]
theorem ofValue?_toValue (parameter : Parameter) :
    ofValue? parameter.toValue = some parameter := by
  simp [ofValue?, toValue]

end Parameter

namespace Function

@[simp]
theorem ofValue?_toValue (function : Function) : ofValue? function.toValue = some function := by
  rcases function with ⟨name, visibility, _ | ⟨first, others⟩, parameters, result, body⟩ <;>
    simp [ofValue?, toValue, optionalField, Value.listOf?_list_map Parameter.ofValue?_toValue]

end Function

/-! ## Constructs and units -/

namespace Construct

mutual

/-- A construct is read back together with the constructs inside it. -/
theorem item?_read_toValue : (construct : Construct) →
    (reader.read construct.toValue).item? = some construct
  | ⟨name, kind, typeParameters, constants, functions, nested⟩ => by
      have readBack := mapM_item?_readItems nested
      rw [toValue, Reader.item?_read_table]
      show ofFields? _ = _
      rcases typeParameters with _ | ⟨first, others⟩ <;>
        simp [ofFields?, Reader.readFields, optionalField, readBack,
          Value.listOf?_list_map Constant.ofValue?_toValue,
          Value.listOf?_list_map Function.ofValue?_toValue]

theorem mapM_item?_readItems : (constructs : List Construct) →
    (reader.readItems (toValues constructs)).mapM Reading.item? = some constructs
  | [] => rfl
  | construct :: rest => by
      rw [toValues, Reader.readItems, List.mapM_cons, mapM_item?_readItems rest,
        item?_read_toValue construct]
      rfl

end

@[simp]
theorem ofValue?_toValue (construct : Construct) :
    ofValue? construct.toValue = some construct :=
  item?_read_toValue construct

end Construct

namespace NameSet

/-- A name that comes before all others of an increasing list is put in front. -/
theorem insertName_of_forall_lt
    {name : String} {names : List String}
    (first : ∀ other ∈ names, name < other) :
    insertName name names = name :: names := by
  cases names with
  | nil => rfl
  | cons other rest => simp [insertName, first other List.mem_cons_self]

/-- Names that increase are the members of their set, in that order. -/
theorem toList_ofList
    {names : List String}
    (increasing : names.Pairwise (· < ·)) :
    (ofList names).toList = names := by
  induction names with
  | nil => rfl
  | cons name rest ih =>
      rcases List.pairwise_cons.1 increasing with ⟨first, restIncreasing⟩
      show insertName name (ofList rest).toList = name :: rest
      rw [ih restIncreasing, insertName_of_forall_lt first]

/-- A set is read back from its members. -/
@[simp]
theorem ofList_toList (names : NameSet) : ofList names.toList = names := by
  rcases names with ⟨names, increasing⟩
  have same := toList_ofList increasing
  generalize ofList names = read at same
  rcases read with ⟨readNames, _⟩
  cases same
  rfl

end NameSet

namespace CompilationUnit

@[simp]
theorem ofValue?_toValue (unit : CompilationUnit) : ofValue? unit.toValue = some unit := by
  simp [ofValue?, toValue]

end CompilationUnit

/-! ## What is left out -/

/-- Units, constructs and types are read back from their data as they were.  A
list of type parameters or type arguments is left out exactly when it is empty,
an annotation exactly when there is none, and every type shows its form. -/
theorem ofValue?_toValue_and_field?_eq_none_iff :
    (∀ unit : CompilationUnit, CompilationUnit.ofValue? unit.toValue = some unit) ∧
      (∀ construct : Construct, Construct.ofValue? construct.toValue = some construct) ∧
      (∀ type : TypeExpr, TypeExpr.ofValue? type.toValue = some type) ∧
      (∀ construct : Construct, construct.toValue.field? "type_parameters" = none ↔
        construct.typeParameters = []) ∧
      (∀ function : Function, function.toValue.field? "type_parameters" = none ↔
        function.typeParameters = []) ∧
      (∀ constant : Constant, constant.toValue.field? "annotation" = none ↔
        constant.annotation = none) ∧
      (∀ name arguments, (TypeExpr.named name arguments).toValue.field? "arguments" = none ↔
        arguments = []) ∧
      ∀ inside (type : TypeExpr),
        (type.toValue.field? "kind").bind (TypeExpr.Form.ofValue? inside) = some type.form := by
  refine ⟨CompilationUnit.ofValue?_toValue, Construct.ofValue?_toValue,
    TypeExpr.ofValue?_toValue, fun construct => ?_, fun function => ?_, fun constant => ?_,
    fun name arguments => ?_, fun inside type => ?_⟩
  · rcases construct with ⟨name, kind, _ | ⟨first, others⟩, constants, functions, nested⟩ <;>
      simp [Construct.toValue, optionalField]
  · rcases function with ⟨name, visibility, _ | ⟨first, others⟩, parameters, result, body⟩ <;>
      simp [Function.toValue, optionalField]
  · rcases constant with ⟨name, visibility, _ | type, value⟩ <;> simp [Constant.toValue]
  · cases arguments <;> simp [TypeExpr.toValue, optionalField]
  · rw [TypeExpr.field?_kind_toValue, Option.bind_some, TypeExpr.Form.ofValue?_word]

end TarnBuild
