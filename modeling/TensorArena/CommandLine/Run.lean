import TensorArena.Catalog.Standard
import TensorArena.CommandLine.Arguments
import TensorArena.CommandLine.Files
import TensorArena.Compile.Report
import TensorArena.Graph.Document

/-!
# Running commands

Settings come from a file, then from the environment, then from the command line; later ones win.
A command that fails reports what it was about and the chain of causes.
-/

set_option autoImplicit false

namespace TensorArena.CommandLine

/-- A failed action and the causes of its failure, the outermost first. -/
structure Failure where
  action : String
  causes : List String

/-- What a run comes to. -/
structure Exit where
  code : UInt8
  output : String := ""
  errors : String := ""

/-- Repeats an indentation after every line break. -/
def hang (indentation text : String) : String := text.replace "\n" ("\n" ++ indentation)

def numberedCauses (number : Nat) : List String → String
  | [] => ""
  | cause :: rest => s!"    {number}: " ++ hang "       " cause ++ "\n" ++
      numberedCauses (number + 1) rest

/-- Several causes are numbered, a single one is not. -/
def Failure.render (failure : Failure) : String :=
  let causes := match failure.causes with
    | [] => "\n"
    | [cause] => "\n\nCaused by:\n    " ++ hang "    " cause ++ "\n"
    | causes => "\n\nCaused by:\n" ++ numberedCauses 0 causes
  "Error: " ++ failure.action ++ causes

def fileCauses (error : FileError) : List String :=
  ["io error: " ++ error.message, error.message]

def documentCauses : List String := ["json error:", "<json>"]

variable {m : Type → Type} [Monad m]

def loadSettings (files : Files m) (path : String) : ExceptT Failure m Settings := do
  let action := "failed to load config " ++ path
  match ← files.readText path with
  | .error error => throw ⟨action, fileCauses error⟩
  | .ok text =>
    match Settings.ofText? text with
    | none => throw ⟨action, documentCauses⟩
    | some settings =>
      match settings.validate with
      | .error error => throw ⟨action, [error.message]⟩
      | .ok () => return settings

def loadGraph (files : Files m) (path : String) : ExceptT Failure m Graph := do
  let action := "failed to load graph " ++ path
  match ← files.readText path with
  | .error error => throw ⟨action, fileCauses error⟩
  | .ok text =>
    match Graph.ofText? text with
    | none => throw ⟨action, documentCauses⟩
    | some graph => return graph

/-- Lays the command line over the settings. -/
def Overrides.apply (overrides : Overrides) (settings : Settings) : Settings :=
  { settings with
    modelName := overrides.model.or settings.modelName
    arenaLimit := overrides.arenaLimit.or settings.arenaLimit
    alignment := overrides.alignment.getD settings.alignment
    emission := if overrides.eager then .eager else settings.emission }

/-- The settings in force after all layers. -/
def effectiveSettings (files : Files m) (environment : String → Option String)
    (config : Option String) (overrides : Overrides) : ExceptT Failure m Settings := do
  let settings ← match config with
    | some path => loadSettings files path
    | none => pure {}
  match settings.withEnvironment environment with
  | .error error => throw ⟨"invalid environment override", [error.message]⟩
  | .ok settings =>
    let settings := overrides.apply settings
    match settings.validate with
    | .error error => throw ⟨"invalid configuration", [error.message]⟩
    | .ok () => return settings

def loadModel (files : Files m) (path : String) (settings : Settings) :
    ExceptT Failure m Model := do
  let graph ← loadGraph files path
  match graph.compile Catalog.standard settings with
  | .ok model => return model
  | .error error =>
    throw ⟨s!"failed to compile graph '{graph.name}'", [error.message, error.cause]⟩

/-- Takes slashes, and dots between slashes, from the end of a path that is written backwards. A
slash or a dot that the path begins with stays. -/
def trimBackwards : List Char → List Char
  | [] => []
  | c :: rest =>
    if rest.isEmpty then [c]
    else if c = '/' || c = '.' && rest.head? = some '/' then trimBackwards rest
    else c :: rest

/-- The directory of a path, empty for a name alone. -/
def directoryOf (path : String) : String :=
  String.ofList (trimBackwards (path.toList.reverse.dropWhile fun c => c ≠ '/')).reverse

/-- The path of a name in a directory. -/
def inDirectory (directory name : String) : String :=
  if directory.isEmpty || directory.endsWith "/" then directory ++ name
  else directory ++ "/" ++ name

/-- The source of a model is written next to its graph. -/
def sourcePath (graph model : String) : String := inDirectory (directoryOf graph) (model ++ ".cpp")

def runCommand (files : Files m) (environment : String → Option String) :
    Command → ExceptT Failure m String
  | .compile graph config overrides output => do
    let settings ← effectiveSettings files environment config overrides
    let model ← loadModel files graph settings
    let path := output.getD (sourcePath graph model.name)
    match ← files.write path model.source with
    | .ok () => return ""
    | .error error => throw ⟨"failed to write " ++ path, [error.message]⟩
  | .plan graph config overrides => do
    let settings ← effectiveSettings files environment config overrides
    let model ← loadModel files graph settings
    return model.report.write .indented ++ "\n"

def usage : String :=
  "Usage: arenac compile [OPTIONS] <GRAPH>\n       arenac plan [OPTIONS] <GRAPH>\n"

/-- Runs the program. Arguments that are not understood end it with code two. -/
def run (files : Files m) (environment : String → Option String) (arguments : List String) :
    m Exit := do
  match Invocation.ofArguments? arguments with
  | none => return { code := 2, errors := usage }
  | some .version => return { code := 0, output := "arenac 0.1.0\n" }
  | some .help => return { code := 0, output := usage }
  | some (.run command) =>
    match ← (runCommand files environment command).run with
    | .ok output => return { code := 0, output }
    | .error failure => return { code := 1, errors := failure.render }

end TensorArena.CommandLine
