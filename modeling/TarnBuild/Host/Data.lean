import TarnBuild.Host.Library
import TarnBuild.Syntax.Data

/-!
# Signatures as data

The types of an exposed function as structured data, in both directions.
-/

namespace TarnBuild

namespace Signature

/-- A signature as data. -/
def toValue (signature : Signature) : Value :=
  .table [("parameters", .list (signature.parameters.map Primitive.toValue)),
    ("return_type", signature.result.toValue)]

/-- The signature that a value is. -/
def ofValue? (value : Value) : Option Signature := do
  let fields ← value.fields? ["parameters", "return_type"]
  let parameters ←
    fieldOr fields "parameters" (Value.listOf? Primitive.ofValue?) none
  let result ← fieldOr fields "return_type" Primitive.ofValue? none
  return { parameters, result }

end Signature

end TarnBuild
