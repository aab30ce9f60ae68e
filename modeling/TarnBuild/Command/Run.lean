import TarnBuild.Build.Dot
import TarnBuild.Build.Program
import TarnBuild.Command.Arguments
import TarnBuild.Data.Json

/-!
# Running commands

What a command prints and how it changes the file system.  A command that fails
prints its error, and below it the causes of the error, and ends with code one;
a command line that is wrong ends with code two.
-/

namespace TarnBuild

/-- Why a command fails: a message, and the causes behind it. -/
structure Failure where
  message : String
  causes : List String
  deriving DecidableEq, Repr

namespace Failure

/-- A build error as the failure of a command. -/
def ofBuildError (error : BuildError) : Failure :=
  ⟨error.message, error.causes⟩

/-- The failure with another message in front, of which it is then the cause. -/
def within (message : String) (failure : Failure) : Failure :=
  ⟨message, failure.message :: failure.causes⟩

/-- A cause after its label, with further lines indented below it. -/
def causeText (label indent cause : String) : String :=
  "\n" ++ label ++ ("\n" ++ indent).intercalate
    ((cause.toList.splitOn '\n').map String.ofList)

/-- The causes, numbered if there are several. -/
def causesText : List String → String
  | [] => ""
  | [cause] => "\n\nCaused by:" ++ causeText "    " "    " cause
  | causes =>
      "\n\nCaused by:" ++ String.join (causes.mapIdx fun number cause =>
        causeText (String.ofList (List.replicate (5 - (toString number).length) ' ') ++
          toString number ++ ": ") "       " cause)

/-- The text that is printed for a failure. -/
def render (failure : Failure) : String :=
  "Error: " ++ failure.message ++ causesText failure.causes ++ "\n"

end Failure

/-- What a command leaves behind. -/
structure Effect where
  code : Nat
  stdout : String
  stderr : String
  system : FileSystem

/-- The line of a unit in a summary, which tells its place in the order. -/
def summaryLine (index : Nat) (name : String) : String :=
  let place := toString (index + 1)
  "  " ++ String.ofList (List.replicate (3 - place.length) ' ') ++ place ++ ". " ++
    name ++ "\n"

/-- The summary of a program: its root, and its units in their order. -/
def summary (root : Construct) : String :=
  root.kind.word ++ " " ++ root.name ++ "\n" ++
    String.join (root.nestedNames.mapIdx summaryLine)

/-- The text of a program in a format. -/
def OutputFormat.render (root : Construct) : OutputFormat → String
  | summary => TarnBuild.summary root
  | json => Json.pretty root.toValue ++ "\n"

namespace Command

/-- The failure of a configuration that cannot be loaded. -/
def configFailure (error : BuildError) : Failure :=
  (Failure.ofBuildError error).within "Failed to load configuration"

/-- The path of the working directory. -/
def workingPath (system : FileSystem) : String :=
  "/" ++ "/".intercalate system.workingDirectory

/-- What a command prints, and the file system after it. -/
def perform (system : FileSystem) : Command → Except Failure (String × FileSystem)
  | assemble path config format output => do
      let input := SourceInput.ofPath system path
      let config ← (BuildConfig.resolve system config input).mapError configFailure
      let root ← (assembleProgram system config input).mapError Failure.ofBuildError
      let text := format.render root
      match output with
      | none => return (text, system)
      | some output =>
          match system.writeText output text with
          | .ok after => return ("", after)
          | .error fault =>
              .error ⟨"Failed to write output: " ++ Text.quotedPath output, [fault.message]⟩
  | graph directory config => do
      let input := SourceInput.directory directory
      let config ← (BuildConfig.resolve system config input).mapError configFailure
      let units ← (loadUnits system config input).mapError Failure.ofBuildError
      return (Dot.render units ++ "\n", system)
  | runtime config => do
      let config ← (match config with
        | some path => BuildConfig.load system path
        | none => BuildConfig.discover system (workingPath system)).mapError
          Failure.ofBuildError
      let library ← config.runtimeLibrary.mapError Failure.ofBuildError
      let lines := library.signatures.map fun entry =>
        entry.1 ++ ": " ++ entry.2.render ++ "\n"
      return (String.join lines, system)

/-- What is printed for a command line that asks for help. -/
def usage : String :=
  "Usage: tarn [-v] [-d] assemble PATH [-c FILE] [-f summary|json] [-o FILE]\n" ++
  "       tarn [-v] [-d] graph DIR [-c FILE]\n" ++
  "       tarn [-v] [-d] runtime [-c FILE]\n"

/-- What a command line leaves behind: its exit code, what it prints, and the
file system. -/
def run (system : FileSystem) (arguments : List String) : Effect :=
  match ofArguments arguments with
  | .error .help => ⟨0, usage, "", system⟩
  | .error .misuse => ⟨2, "", usage, system⟩
  | .ok command =>
      match command.perform system with
      | .ok (text, after) => ⟨0, text, "", after⟩
      | .error failure => ⟨1, "", failure.render, system⟩

end Command

end TarnBuild
