import TarnBuild.Build.Assembly
import TarnBuild.Parser.Construct

/-!
# Sources of a build

A source is a file, known by its name without the extension, or a text at hand,
known by the name that it declares.  Sources are collected from a directory in
the order of their paths, name by name; no two of them may have one identifier.

Sources do not depend on each other, so they may be read in any order.  A
schedule says in which one.
-/

namespace TarnBuild

/-- Where the text of a source is. -/
inductive SourceText where
  | file (path : String)
  | inline (text : String)
  deriving DecidableEq, Repr

/-- One source of a build. -/
structure SourceFile where
  /-- The name that the source is known by; a text at hand has none of its own. -/
  identifier? : Option String
  text : SourceText
  deriving DecidableEq, Repr

/-- The name of a text at hand in messages. -/
def inlineName : String := "<source>"

namespace SourceFile

/-- The name of a source in messages. -/
def displayName (source : SourceFile) : String :=
  match source.text with
  | .file path => path
  | .inline _ => inlineName

/-- The text of a source, which a file may fail to give. -/
def content (system : FileSystem) (source : SourceFile) : Except BuildError String :=
  match source.text with
  | .file path => (system.readText path).mapError (.unusableFile path)
  | .inline text => .ok text

/-- The report on what is wrong with the text of a source. -/
def report (text : List Char) (error : SourceError) : String :=
  (error.diagnostic.render? text).getD error.fault.message

/-- The unit that a source holds, with the identifier of the source. -/
def read (system : FileSystem) (source : SourceFile) :
    Except BuildError (String × CompilationUnit) := do
  let text := (← source.content system).toList
  match parse text with
  | .error error => .error (.malformedSource source.displayName (report text error))
  | .ok unit => return (source.identifier?.getD unit.declaredName, unit)

end SourceFile

/-- The sources of one build, in the order in which they were found. -/
structure SourceSet where
  files : List SourceFile
  deriving DecidableEq, Repr

namespace SourceSet

/-- A text at hand as the only source. -/
def ofText (text : String) : SourceSet :=
  ⟨[⟨none, .inline text⟩]⟩

/-- A file as the only source, known by its name without the extension. -/
def ofFile (path : String) : Except BuildError SourceSet :=
  match Path.fileName? path with
  | some name => .ok ⟨[⟨some (Path.stem name), .file path⟩]⟩
  | none => .error (.unusableFile path .noFileName)

/-- The identifier and the path of each file with an extension, given the names
that lead to files below a directory. -/
def candidates (root extension : String) (files : List (List String)) :
    List (String × String) :=
  files.filterMap fun names => do
    let name ← names.getLast?
    if Path.extension? name = some extension then
      some (Path.stem name, names.foldl Path.join root)
    else
      none

/-- The sources at some paths under their identifiers, none of which may occur
twice.  The paths found so far are given under their identifiers. -/
def distinctFiles (seen : List (String × String)) :
    List (String × String) → Except BuildError (List SourceFile)
  | [] => .ok []
  | (identifier, path) :: rest =>
      match seen.lookup identifier with
      | some first => .error (.duplicateFile identifier first path)
      | none => do
          let others ← distinctFiles ((identifier, path) :: seen) rest
          return ⟨some identifier, .file path⟩ :: others

/-- The files with an extension below a directory. -/
def discover (system : FileSystem) (root extension : String) :
    Except BuildError SourceSet :=
  match system.node? root with
  | some (.directory entries) => do
      let files := (Node.directory entries).files
      return ⟨← distinctFiles [] (candidates root extension files)⟩
  | _ => .error (.unusableFile root .noSourceDirectory)

/-- Units under identifiers that must not occur twice. -/
def collect : List (String × CompilationUnit) → Units → Except BuildError Units
  | [], units => .ok units
  | (identifier, unit) :: rest, units =>
      match units.get? identifier with
      | some _ => .error (.internal (.identifierRepeated identifier))
      | none => collect rest (units.insert identifier unit)

/-- Read all sources, one after the other. -/
def readAll (system : FileSystem) (sources : SourceSet) : Except BuildError Units := do
  collect (← sources.files.mapM (SourceFile.read system)) .empty

/-- Read the sources at some places of a list, in the order of the places, until
one cannot be read.  Each result stands under its place. -/
def readPlaces (system : FileSystem) (files : List SourceFile) :
    List Nat → Except BuildError (List (Nat × String × CompilationUnit))
  | [] => .ok []
  | place :: rest =>
      match files[place]? with
      | none => readPlaces system files rest
      | some file => do
          let result ← file.read system
          return (place, result) :: (← readPlaces system files rest)

/-- Read all sources along a schedule, which is the order in which workers that
share the sources come to their places.  The results are brought back into the
order of the sources; only which of several failures is met depends on the
schedule. -/
def readAllAlong (system : FileSystem) (schedule : List Nat) (sources : SourceSet) :
    Except BuildError Units := do
  let results ← readPlaces system sources.files schedule
  let ordered :=
    (List.range sources.files.length).filterMap fun place => results.lookup place
  collect ordered .empty

/-- The schedule that follows the order of the sources. -/
def inOrder (sources : SourceSet) : List Nat :=
  List.range sources.files.length

end SourceSet

end TarnBuild
