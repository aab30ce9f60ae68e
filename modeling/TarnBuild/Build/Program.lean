import TarnBuild.Build.Source
import TarnBuild.Config.Data

/-!
# Builds

A build takes its sources from a directory, from a file or from a text at hand,
and its configuration from a file that is named or lies beside the sources.
The stages of a build follow each other: the settings are checked, the sources
are found, read, and put together.
-/

namespace TarnBuild

/-- Where the sources of a build come from. -/
inductive SourceInput where
  | directory (path : String)
  | file (path : String)
  | text (text : String)
  deriving DecidableEq, Repr

namespace SourceInput

/-- A path as the origin of sources: a directory if it leads to one. -/
def ofPath (system : FileSystem) (path : String) : SourceInput :=
  if system.isDirectory path then directory path else file path

/-- The sources that an origin gives, where the extension matters to directories
only. -/
def acquire (system : FileSystem) (config : BuildConfig) :
    SourceInput → Except BuildError SourceSet
  | directory path => SourceSet.discover system path config.build.extension
  | file path => SourceSet.ofFile path
  | text content => .ok (SourceSet.ofText content)

end SourceInput

namespace BuildConfig

/-- The configuration in a file. -/
def load (system : FileSystem) (path : String) : Except BuildError BuildConfig := do
  let text ← (system.readText path).mapError (.unusableFile path)
  (ofToml text.toList).mapError fun fault => .badConfig (.inFile path fault)

/-- The configuration of a directory, or the default one if it has none. -/
def discover (system : FileSystem) (directory : String) :
    Except BuildError BuildConfig :=
  let path := Path.join directory configFileName
  if system.isFile path then load system path else .ok {}

/-- The configuration in a file that is named, or else the one beside the
sources. -/
def resolve (system : FileSystem) (named : Option String) (input : SourceInput) :
    Except BuildError BuildConfig :=
  match named with
  | some path => load system path
  | none =>
      match input with
      | .directory path => discover system path
      | .file path =>
          match Path.parent? path with
          | some parent => if parent == "" then .ok {} else discover system parent
          | none => .ok {}
      | .text _ => .ok {}

/-- Check the settings of a configuration before a build. -/
def check (config : BuildConfig) : Except BuildError Unit :=
  config.validate.mapError .badConfig

end BuildConfig

/-- Check the settings and read the sources of a build, along a schedule where
the settings allow it. -/
def loadUnitsAlong (schedule : SourceSet → List Nat) (system : FileSystem)
    (config : BuildConfig) (input : SourceInput) : Except BuildError Units := do
  config.check
  let sources ← input.acquire system config
  if config.build.parallel then
    sources.readAllAlong system (schedule sources)
  else
    sources.readAll system

/-- Check the settings and read the sources of a build. -/
def loadUnits : FileSystem → BuildConfig → SourceInput → Except BuildError Units :=
  loadUnitsAlong SourceSet.inOrder

/-- Check the settings, read the sources of a build along a schedule and put
them together along an enumeration of what they import. -/
def assembleProgramAlong (schedule : SourceSet → List Nat)
    (enumerate : Units → Graph String) (system : FileSystem) (config : BuildConfig)
    (input : SourceInput) : Except BuildError Construct := do
  let units ← loadUnitsAlong schedule system config input
  config.assembler.assembleAlong (enumerate units) units

/-- Check the settings, read the sources of a build and put them together. -/
def assembleProgram :
    FileSystem → BuildConfig → SourceInput → Except BuildError Construct :=
  assembleProgramAlong SourceSet.inOrder Units.importGraph

end TarnBuild
