import TarnBuild.Syntax.TypeExpr
import TarnBuild.Text.Blank

/-!
# Host types

The names by which the host of a program speaks of types.  Eight of them have a
primitive type as their counterpart; every other name is kept as it is.  Blank
characters around a name do not count.
-/

namespace TarnBuild

/-- A type by the name that the host has for it. -/
inductive HostType where
  | void
  | int
  | long
  | float
  | double
  | boolean
  | char
  | string
  /-- A type without a counterpart. -/
  | other (name : String)
  deriving DecidableEq, Repr

namespace HostType

/-- The host types that have a counterpart. -/
def known : List HostType :=
  [void, int, long, float, double, boolean, char, string]

/-- The primitive type that a host type corresponds to, if there is one. -/
def primitive? : HostType → Option Primitive
  | void => some .unit
  | int => some .int
  | long => some .int
  | float => some .float
  | double => some .float
  | boolean => some .bool
  | char => some .char
  | string => some .string
  | other _ => none

/-- The name of a host type. -/
def name : HostType → String
  | void => "void"
  | int => "int"
  | long => "long"
  | float => "float"
  | double => "double"
  | boolean => "boolean"
  | char => "char"
  | string => "String"
  | other name => name

/-- The host type with a given name, around which blank characters may stand. -/
def ofText (text : String) : HostType :=
  let name := Text.trim text
  (known.find? fun type => type.name == name).getD (other name)

end HostType

end TarnBuild
