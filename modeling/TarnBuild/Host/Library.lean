import TarnBuild.Host.HostType

/-!
# Runtime libraries

The functions that a host provides to programs.  A declared function is exposed
if it is both public and external; only then its types must have counterparts
and its name must not be taken by an earlier one.
-/

namespace TarnBuild

/-- A function that the host declares. -/
structure RuntimeFunction where
  name : String
  isPublic : Bool
  isExternal : Bool
  parameters : List HostType
  returns : HostType
  deriving DecidableEq, Repr

/-- The type of an exposed function. -/
structure Signature where
  parameters : List Primitive
  result : Primitive
  deriving DecidableEq, Repr

/-- The written form of a signature. -/
def Signature.render (signature : Signature) : String :=
  "(" ++ ", ".intercalate (signature.parameters.map Primitive.word) ++ ") -> " ++
    signature.result.word

/-- What can be wrong with the functions that a host declares. -/
inductive LibraryFault where
  /-- A type of an exposed function has no counterpart. -/
  | disallowed (name : String) (type : HostType)
  /-- Two exposed functions have one name. -/
  | duplicate (name : String)
  deriving DecidableEq, Repr

/-- The wording of a fault in the declared functions. -/
def LibraryFault.message : LibraryFault → String
  | disallowed name type =>
      "Disallowed runtime function '" ++ name ++ "': host type '" ++ type.name ++
        "' has no Tarn equivalent"
  | duplicate name => "Duplicate runtime function '" ++ name ++ "'"

namespace RuntimeFunction

/-- Whether programs can use a function. -/
def isExposed (function : RuntimeFunction) : Bool :=
  function.isPublic && function.isExternal

/-- The primitive type that a type of a function corresponds to. -/
def counterpart (function : RuntimeFunction) (type : HostType) :
    Except LibraryFault Primitive :=
  match type.primitive? with
  | some primitive => .ok primitive
  | none => .error (.disallowed function.name type)

/-- The signature of a function, if all its types have counterparts. -/
def signature (function : RuntimeFunction) : Except LibraryFault Signature := do
  let parameters ← function.parameters.mapM function.counterpart
  let result ← function.counterpart function.returns
  return { parameters, result }

end RuntimeFunction

/-- The exposed functions of a host. -/
structure RuntimeLibrary where
  /-- The signatures under their names, in the order of declaration. -/
  signatures : List (String × Signature)
  deriving DecidableEq, Repr

namespace RuntimeLibrary

/-- The library without functions. -/
def empty : RuntimeLibrary := ⟨[]⟩

/-- The number of functions. -/
def size (library : RuntimeLibrary) : Nat :=
  library.signatures.length

/-- The signature of the function with a name. -/
def get? (library : RuntimeLibrary) (name : String) : Option Signature :=
  library.signatures.lookup name

/-- The library with one more declared function, if that is exposed. -/
def declare (library : RuntimeLibrary) (function : RuntimeFunction) :
    Except LibraryFault RuntimeLibrary := do
  if function.isExposed then
    let signature ← function.signature
    match library.get? function.name with
    | some _ => .error (.duplicate function.name)
    | none => return ⟨library.signatures ++ [(function.name, signature)]⟩
  else
    return library

/-- The library of the functions that a host declares. -/
def ofDeclarations (functions : List RuntimeFunction) :
    Except LibraryFault RuntimeLibrary :=
  functions.foldlM declare empty

end RuntimeLibrary

end TarnBuild
