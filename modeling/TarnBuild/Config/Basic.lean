import TarnBuild.Host.Library
import TarnBuild.Syntax.CompilationUnit

/-!
# Build configurations

A configuration says which files are sources, how the program root is made,
and which functions the host provides.  Every part of it has a default.
-/

namespace TarnBuild

/-- How sources are found and put together. -/
structure BuildSettings where
  /-- The extension of source files, without the dot. -/
  extension : String := "tarn"
  rootName : String := "__Program__"
  /-- The shape of the program root. -/
  surface : Surface := .moduleSurface
  /-- Whether sources may be read at the same time. -/
  parallel : Bool := true
  deriving DecidableEq, Repr

/-- What the host provides. -/
structure RuntimeSettings where
  functions : List RuntimeFunction := []
  deriving DecidableEq, Repr

/-- A configuration: how to build, and what the host provides. -/
structure BuildConfig where
  build : BuildSettings := {}
  runtime : RuntimeSettings := {}
  deriving DecidableEq, Repr

/-- The name of the file that holds the configuration of a directory. -/
def configFileName : String := "tarn.toml"

end TarnBuild
