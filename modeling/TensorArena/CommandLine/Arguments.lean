import TensorArena.Compile.Settings

/-!
# Arguments

An invocation names a command, the path of a graph, and options. An option is given at most once,
its value stands in the next argument or behind an equals sign, and two dashes end the options.
Arguments are checked in their order, so a request for help comes too late behind a wrong one.
-/

set_option autoImplicit false

namespace TensorArena.CommandLine

/-- Settings given on the command line. -/
structure Overrides where
  model : Option String := none
  arenaLimit : Option Nat := none
  alignment : Option Nat := none
  eager : Bool := false
deriving DecidableEq, Repr

inductive Command where
  | compile (graph : String) (config : Option String) (overrides : Overrides)
      (output : Option String)
  | plan (graph : String) (config : Option String) (overrides : Overrides)
deriving DecidableEq, Repr

inductive Invocation where
  | version
  | help
  | run (command : Command)
deriving DecidableEq, Repr

/-- How an argument before two dashes is read. -/
inductive Word where
  | plain (text : String)
  | long (name : String) (value : Option String)
  | short (letters : List Char)
deriving DecidableEq, Repr

/-- The parts of a text before and after its first equals sign. -/
def splitEquals : List Char → List Char × Option (List Char)
  | [] => ([], none)
  | '=' :: rest => ([], some rest)
  | c :: rest => let (name, value) := splitEquals rest; (c :: name, value)

def Word.ofArgument (argument : String) : Word :=
  match argument.toList with
  | '-' :: '-' :: rest =>
    let (name, value) := splitEquals rest
    .long (String.ofList name) (value.map String.ofList)
  | '-' :: c :: rest => .short (c :: rest)
  | _ => .plain argument

/-- Whether an argument begins like an option and so cannot be the value of one. A single dash
does not. -/
def isOption (argument : String) : Bool :=
  match argument.toList with
  | '-' :: _ :: _ => true
  | _ => false

/-- A path must not be empty. -/
def path? (text : String) : Option String := if text.isEmpty then none else some text

/-- The options of the commands. -/
inductive Flag where
  | output
  | model
  | arenaLimit
  | alignment
  | eager
  | config
deriving DecidableEq, Repr

namespace Flag

def name : Flag → String
  | output => "output"
  | model => "model"
  | arenaLimit => "arena-limit"
  | alignment => "alignment"
  | eager => "eager"
  | config => "config"

def letter? : Flag → Option Char
  | output => some 'o'
  | _ => none

def takesValue : Flag → Bool
  | eager => false
  | _ => true

def ofCompile : List Flag := [output, model, arenaLimit, alignment, eager, config]

def ofPlan : List Flag := [arenaLimit, alignment, config]

end Flag

/-- What has been read so far. -/
structure Given where
  help : Bool := false
  graph : Option String := none
  config : Option String := none
  output : Option String := none
  overrides : Overrides := {}
deriving DecidableEq, Repr

namespace Given

/-- Whether an option has been given. -/
def has (given : Given) : Flag → Bool
  | .output => given.output.isSome
  | .model => given.overrides.model.isSome
  | .arenaLimit => given.overrides.arenaLimit.isSome
  | .alignment => given.overrides.alignment.isSome
  | .eager => given.overrides.eager
  | .config => given.config.isSome

/-- Adds an option that has not been given yet, if its value is valid. -/
def add (given : Given) (flag : Flag) (value : String) : Option Given :=
  let overrides := given.overrides
  if given.has flag then none
  else
    match flag with
    | .output => do return { given with output := ← path? value }
    | .config => do return { given with config := ← path? value }
    | .model => some { given with overrides := { overrides with model := value } }
    | .arenaLimit => do
      return { given with
        overrides := { overrides with arenaLimit := ← sizeOfText? value.toList } }
    | .alignment => do
      return { given with
        overrides := { overrides with alignment := ← sizeOfText? value.toList } }
    | .eager => some { given with overrides := { overrides with eager := true } }

/-- Adds the only argument that is no option. -/
def addGraph (given : Given) (text : String) : Option Given :=
  if given.graph.isSome then none else do return { given with graph := ← path? text }

end Given

/-- A value directly behind the letter of an option, with or without an equals sign. -/
def attachedValue : List Char → Option String
  | [] => none
  | '=' :: rest => some (String.ofList rest)
  | rest => some (String.ofList rest)

/-- Reads the arguments of a command. There is no result if one of them is not understood. A
request for help ends the reading. -/
def readArguments (flags : List Flag) (given : Given) : List String → Option Given
  | [] => some given
  | argument :: rest =>
    if argument = "--" then rest.foldlM Given.addGraph given
    else
      match Word.ofArgument argument with
      | .plain text => do readArguments flags (← given.addGraph text) rest
      | .long name value =>
        match flags.find? fun flag => flag.name = name with
        | some flag =>
          match flag.takesValue, value, rest with
          | true, some value, rest => do readArguments flags (← given.add flag value) rest
          | true, none, value :: rest =>
            if isOption value then none
            else do readArguments flags (← given.add flag value) rest
          | true, none, [] => none
          | false, none, rest => do readArguments flags (← given.add flag "") rest
          | false, some _, _ => none
        | none => if name = "help" && value.isNone then some { given with help := true } else none
      | .short [] => none
      | .short (letter :: attached) =>
        match flags.find? fun flag => flag.letter? = some letter with
        | some flag =>
          match attachedValue attached, rest with
          | some value, rest => do readArguments flags (← given.add flag value) rest
          | none, value :: rest =>
            if isOption value then none
            else do readArguments flags (← given.add flag value) rest
          | none, [] => none
        | none => if letter = 'h' then some { given with help := true } else none

def compileCommand? (arguments : List String) : Option Invocation := do
  let given ← readArguments Flag.ofCompile {} arguments
  if given.help then return .help
  return .run (.compile (← given.graph) given.config given.overrides given.output)

def planCommand? (arguments : List String) : Option Invocation := do
  let given ← readArguments Flag.ofPlan {} arguments
  if given.help then return .help
  return .run (.plan (← given.graph) given.config given.overrides)

/-- What the arguments of the program ask for, if they can be understood. -/
def Invocation.ofArguments? : List String → Option Invocation
  | [] => none
  | "compile" :: rest => compileCommand? rest
  | "plan" :: rest => planCommand? rest
  | ["help"] => some .help
  | ["help", topic] => if ["compile", "plan", "help"].contains topic then some .help else none
  | argument :: _ =>
    match Word.ofArgument argument with
    | .long "version" none => some .version
    | .long "help" none => some .help
    | .short ('V' :: _) => some .version
    | .short ('h' :: _) => some .help
    | _ => none

end TensorArena.CommandLine
