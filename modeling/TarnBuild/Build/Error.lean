import TarnBuild.Config.Fault
import TarnBuild.File.System
import TarnBuild.Host.Library

/-!
# Build errors

Everything that can stop a build, and the wording of the message for it.
-/

namespace TarnBuild

/-- What would contradict the way a build works: none of these can happen. -/
inductive InternalFault where
  /-- The order of the units holds an identifier without a unit. -/
  | unitMissing (identifier : String)
  /-- The order of the units leaves some of them out. -/
  | unitsLeft (identifiers : List String)
  /-- Two sources have one identifier. -/
  | identifierRepeated (identifier : String)
  deriving DecidableEq, Repr

/-- The wording of an internal fault. -/
def InternalFault.message : InternalFault → String
  | unitMissing identifier =>
      "'" ++ identifier ++ "' is in the compilation order but has no compilation unit"
  | unitsLeft identifiers =>
      "files missing from the compilation order: " ++ ", ".intercalate identifiers
  | identifierRepeated identifier =>
      "source identifier '" ++ identifier ++ "' produced twice"

/-- What stops a build. -/
inductive BuildError where
  /-- A source cannot be read as a unit. -/
  | malformedSource (file report : String)
  /-- A file cannot be used. -/
  | unusableFile (path : String) (fault : FileFault)
  /-- Two files would have one identifier. -/
  | duplicateFile (identifier first second : String)
  /-- A file imports what is not part of the build. -/
  | unresolvedImport (file imported : String)
  /-- Files import each other in a circle. -/
  | circularImports (cycle : List String)
  /-- A file declares something else than its identifier says. -/
  | nameMismatch (file declared : String)
  /-- A file declares the name of the program root. -/
  | reservedName (file declared : String)
  | badConfig (fault : ConfigFault)
  /-- The functions of the host are at fault. -/
  | badLibrary (fault : LibraryFault)
  /-- The build contradicts itself. -/
  | internal (fault : InternalFault)
  deriving Repr

namespace BuildError

/-- The kinds of build errors.  An import that is not resolved counts as a
malformed graph. -/
inductive Kind where
  | malformedSource
  | unusableFile
  | duplicateFile
  | malformedGraph
  | circularImports
  | nameMismatch
  | reservedName
  | badConfig
  | badLibrary
  | internal
  deriving DecidableEq, Repr

/-- The kind of a build error. -/
def kind : BuildError → Kind
  | malformedSource _ _ => .malformedSource
  | unusableFile _ _ => .unusableFile
  | duplicateFile _ _ _ => .duplicateFile
  | unresolvedImport _ _ => .malformedGraph
  | circularImports _ => .circularImports
  | nameMismatch _ _ => .nameMismatch
  | reservedName _ _ => .reservedName
  | badConfig _ => .badConfig
  | badLibrary _ => .badLibrary
  | internal _ => .internal

/-- The message for a build error. -/
def message : BuildError → String
  | malformedSource file report => "Parse error in " ++ file ++ ": " ++ report
  | unusableFile path fault => "IO error reading " ++ path ++ ": " ++ fault.message
  | duplicateFile identifier first second =>
      "Duplicate source file '" ++ identifier ++ "': " ++ first ++ " and " ++ second
  | unresolvedImport file imported =>
      "Unresolved import: '" ++ file ++ "' imports '" ++ imported ++
        "', which is not part of the build"
  | circularImports cycle =>
      "Circular dependency detected: " ++ " -> ".intercalate cycle
  | nameMismatch file declared =>
      "Name mismatch: file '" ++ file ++ "' declares '" ++ declared ++ "'"
  | reservedName file declared =>
      "Reserved name: file '" ++ file ++ "' declares '" ++ declared ++
        "', which is reserved for the program root"
  | badConfig fault => configHeading ++ fault.message
  | badLibrary fault => "Runtime library error: " ++ fault.message
  | internal fault => "Internal error: " ++ fault.message

/-- The causes behind a build error, the nearest first. -/
def causes : BuildError → List String
  | unusableFile _ fault => [fault.message]
  | badLibrary fault => [fault.message]
  | _ => []

end BuildError

end TarnBuild
