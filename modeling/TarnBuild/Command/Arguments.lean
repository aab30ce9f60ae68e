/-!
# Command lines

What a command line asks for.  There are three commands; options may stand
anywhere among the operands of a command, each at most once, with its value
behind an equals sign, attached to its letter, or as the next argument.  After
two hyphens alone all arguments are operands.
-/

namespace TarnBuild

/-- How a program is shown. -/
inductive OutputFormat where
  | summary
  | json
  deriving DecidableEq, Repr

/-- What a command line asks for. -/
inductive Command where
  | assemble (path : String) (config : Option String) (format : OutputFormat)
      (output : Option String)
  /-- Draw the import graph of a directory. -/
  | graph (directory : String) (config : Option String)
  /-- List the functions of the host. -/
  | runtime (config : Option String)
  deriving DecidableEq, Repr

/-- Why a command line asks for nothing. -/
inductive Refusal where
  | help
  | misuse
  deriving DecidableEq, Repr

namespace Arguments

/-- The options without a value. -/
inductive Switch where
  | verbose
  | debug
  | help
  deriving DecidableEq, Repr

/-- The options with a value. -/
inductive Setting where
  | config
  | format
  | output
  deriving DecidableEq, Repr

/-- The long names of switches. -/
def switches : List (String × Switch) :=
  [("verbose", .verbose), ("debug", .debug), ("help", .help)]

/-- The short names of switches. -/
def switchLetters : List (Char × Switch) :=
  [('v', .verbose), ('d', .debug), ('h', .help)]

/-- The long names of settings. -/
def settings : List (String × Setting) :=
  [("config", .config), ("format", .format), ("output", .output)]

/-- The short names of settings. -/
def settingLetters : List (Char × Setting) :=
  [('c', .config), ('f', .format), ('o', .output)]

/-- The format that a word names. -/
def format? : String → Option OutputFormat
  | "summary" => some .summary
  | "json" => some .json
  | _ => none

/-- Whether a setting can have a value.  A path is never empty. -/
def Setting.accepts (value : String) : Setting → Bool
  | format => (format? value).isSome
  | config => value != ""
  | output => value != ""

/-- The arguments that a command takes. -/
structure Form where
  settings : List Setting
  /-- The number of its operands. -/
  arity : Nat
  deriving DecidableEq, Repr

/-- What the arguments of a command have given so far. -/
structure Given where
  switches : List Switch
  settings : List (Setting × String)
  operands : List String
  deriving DecidableEq, Repr

/-- What is given before the first argument. -/
def Given.nothing : Given := ⟨[], [], []⟩

namespace Given

/-- The value of a setting, if it has one. -/
def value? (given : Given) (setting : Setting) : Option String :=
  given.settings.lookup setting

/-- Give a switch, which must not be given yet. -/
def turnOn (given : Given) (switch : Switch) : Except Refusal Given :=
  if switch = .help then .error .help
  else if switch ∈ given.switches then .error .misuse
  else .ok { given with switches := switch :: given.switches }

/-- Give a value to a setting, which must not have one yet. -/
def assign (given : Given) (setting : Setting) (value : String) :
    Except Refusal Given :=
  if setting.accepts value && (given.value? setting).isNone then
    .ok { given with settings := (setting, value) :: given.settings }
  else
    .error .misuse

/-- Give an operand, which is a path, where there is still need of one. -/
def addOperand (arity : Nat) (given : Given) (operand : String) :
    Except Refusal Given :=
  if operand != "" && given.operands.length < arity then
    .ok { given with operands := given.operands ++ [operand] }
  else
    .error .misuse

/-- The format that is asked for, or else the summary. -/
def outputFormat (given : Given) : OutputFormat :=
  ((given.value? .format).bind format?).getD .summary

end Given

/-- Whether an argument can be the value of the option before it. -/
def isValue (argument : String) : Bool :=
  argument == "-" || argument.toList.head? != some '-'

/-- What an argument with a single hyphen gives, after the hyphen, and the
setting that still waits for its value. -/
def readLetters (allowed : List Setting) (given : Given) :
    List Char → Except Refusal (Given × Option Setting)
  | [] => .ok (given, none)
  | letter :: rest =>
      match switchLetters.lookup letter with
      | some switch => do readLetters allowed (← given.turnOn switch) rest
      | none =>
          match settingLetters.lookup letter with
          | none => .error .misuse
          | some setting =>
              if setting ∉ allowed then .error .misuse
              else
                match rest with
                | [] => .ok (given, some setting)
                | '=' :: value => do
                    return (← given.assign setting (String.ofList value), none)
                | value => do
                    return (← given.assign setting (String.ofList value), none)

/-- What an argument with two hyphens gives, after the hyphens, and the setting
that still waits for its value. -/
def readLong (allowed : List Setting) (given : Given) (argument : List Char) :
    Except Refusal (Given × Option Setting) :=
  let name := String.ofList (argument.takeWhile (· != '='))
  let value := argument.dropWhile (· != '=')
  match switches.lookup name with
  | some switch =>
      if value.isEmpty then do return (← given.turnOn switch, none)
      else .error .misuse
  | none =>
      match settings.lookup name with
      | none => .error .misuse
      | some setting =>
          if setting ∉ allowed then .error .misuse
          else
            match value with
            | [] => .ok (given, some setting)
            | _ :: value => do
                return (← given.assign setting (String.ofList value), none)

/-- What an argument that starts with a hyphen gives, and the setting that still
waits for its value. -/
def readOption (allowed : List Setting) (given : Given) (argument : String) :
    Except Refusal (Given × Option Setting) :=
  match argument.toList with
  | '-' :: '-' :: long => readLong allowed given long
  | _ :: letters => readLetters allowed given letters
  | [] => .ok (given, none)

/-- What the arguments of a command give, on top of what is given already.
After two hyphens all arguments are operands. -/
def read (form : Form) (given : Given) : List String → Except Refusal Given
  | [] => .ok given
  | argument :: rest =>
      if argument == "--" then
        rest.foldlM (Given.addOperand form.arity) given
      else if isValue argument then
        match given.addOperand form.arity argument with
        | .error refusal => .error refusal
        | .ok after => read form after rest
      else
        match readOption form.settings given argument with
        | .error refusal => .error refusal
        | .ok (after, none) => read form after rest
        | .ok (after, some setting) =>
            match rest with
            | [] => .error .misuse
            | value :: others =>
                if isValue value then
                  match after.assign setting value with
                  | .error refusal => .error refusal
                  | .ok assigned => read form assigned others
                else
                  .error .misuse

/-- The names of the commands, help among them. -/
def commandNames : List String := ["assemble", "graph", "runtime", "help"]

/-- Why there is no command where help is asked for: help is on nothing but a
command. -/
def helpOn : List String → Refusal
  | [] => .help
  | [name] => if name ∈ commandNames then .help else .misuse
  | _ => .misuse

/-- The command with a name, given its arguments. -/
def readCommand (name : String) (arguments : List String) : Except Refusal Command :=
  match name with
  | "assemble" => do
      let given ← read ⟨[.config, .format, .output], 1⟩ .nothing arguments
      match given.operands with
      | path :: _ =>
          return .assemble path (given.value? .config) given.outputFormat
            (given.value? .output)
      | [] => .error .misuse
  | "graph" => do
      let given ← read ⟨[.config], 1⟩ .nothing arguments
      match given.operands with
      | directory :: _ => return .graph directory (given.value? .config)
      | [] => .error .misuse
  | "runtime" => do
      let given ← read ⟨[.config], 0⟩ .nothing arguments
      return .runtime (given.value? .config)
  | "help" => .error (helpOn arguments)
  | _ => .error .misuse

/-- Read a command line after the switches that are given so far. -/
def readFrom (given : Given) : List String → Except Refusal Command
  | [] => .error .misuse
  | argument :: rest =>
      if isValue argument then
        readCommand argument rest
      else if argument == "--" then
        .error .misuse
      else do
        let (after, _) ← readOption [] given argument
        readFrom after rest

end Arguments

/-- The command that the arguments of a command line ask for. -/
def Command.ofArguments (arguments : List String) : Except Refusal Command :=
  Arguments.readFrom .nothing arguments

end TarnBuild
