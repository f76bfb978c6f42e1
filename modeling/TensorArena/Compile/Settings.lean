import TensorArena.Arena.Planner
import TensorArena.Catalog.Descriptor
import TensorArena.Json.Decoder
import TensorArena.Json.Reader
import TensorArena.Program.Step
import TensorArena.Text.Blank
import TensorArena.Text.Identifier

/-!
# Settings

The settings of a compilation come from a document in which every field may be missing, and from
environment variables laid over it.
-/

set_option autoImplicit false

namespace TensorArena

structure Settings where
  /-- The prefix of the generated names; without it, the name of the graph is used. -/
  modelName : Option String := none
  arenaLimit : Option Nat := none
  alignment : Nat := 4
  emission : Emission := .lazy
  maxPending : Option Nat := none
  runtimeHeader : String := defaultHeader
  contextName : String := "ctx"
deriving DecidableEq, Repr

/-- Why settings are refused. -/
inductive SettingsError where
  | invalidAlignment (alignment : Nat)
  | invalidMaxPending
  | invalidIdentifier (field value : String)
  | invalidVariable (name value : String)
deriving DecidableEq, Repr

def SettingsError.message : SettingsError → String
  | invalidAlignment alignment => s!"alignment {alignment} is not a power of two"
  | invalidMaxPending => "max_pending must be at least 1"
  | invalidIdentifier field value => s!"{field} '{value}' is not a valid C identifier"
  | invalidVariable name value => s!"environment variable {name}='{value}' is invalid"

def isPowerOfTwo (value : Nat) : Bool := value == Nat.pow 2 value.log2

/-- A size in decimal digits after an optional plus sign. -/
def sizeOfText? (text : List Char) : Option Nat :=
  let digits := match text with
    | '+' :: rest => rest
    | text => text
  match Json.Reader.digitRun digits with
  | ([], _) => none
  | (digits, []) => size? (numeral digits)
  | (_, _ :: _) => none

namespace Settings

def arenaOptions (settings : Settings) : ArenaOptions :=
  ⟨settings.arenaLimit, settings.alignment⟩

def batching (settings : Settings) : Batching := ⟨settings.emission, settings.maxPending⟩

def checkIdentifier (field value : String) : Except SettingsError Unit :=
  if Identifier.isIdentifier value then .ok () else .error (.invalidIdentifier field value)

def validate (settings : Settings) : Except SettingsError Unit := do
  if !isPowerOfTwo settings.alignment then .error (.invalidAlignment settings.alignment)
  else if settings.maxPending = some 0 then .error .invalidMaxPending
  else
    if let some name := settings.modelName then checkIdentifier "model_name" name
    checkIdentifier "context_var" settings.contextName

def eagerVariable : String := "ARENAC_EAGER"

def arenaLimitVariable : String := "ARENAC_ARENA_LIMIT"

/-- Whether a switch is on. Any text but these four leaves it off. -/
def isOn (text : List Char) : Bool :=
  ["1".toList, "true".toList, "yes".toList, "on".toList].contains
    ((Blank.trim text).map Char.toLower)

/-- Lays the environment over the settings. A switch that is off changes nothing. -/
def withEnvironment (settings : Settings) (environment : String → Option String) :
    Except SettingsError Settings :=
  let settings :=
    if (environment eagerVariable).any fun value => isOn value.toList then
      { settings with emission := .eager }
    else settings
  match environment arenaLimitVariable with
  | none => .ok settings
  | some value =>
    match sizeOfText? (Blank.trim value.toList) with
    | some limit => .ok { settings with arenaLimit := some limit }
    | none => .error (.invalidVariable arenaLimitVariable value)

end Settings

def Emission.ofJson? (json : Json) : Option Emission := do
  match ← json.variant? with
  | "lazy" => some .lazy
  | "eager" => some .eager
  | _ => none

def Settings.ofJson? (json : Json) : Option Settings := do
  let [modelName, arenaLimit, alignment, emission, maxPending, runtimeHeader, contextName] ←
    json.fields? ["model_name", "arena_limit", "alignment", "emission", "max_pending",
      "runtime_header", "context_var"] | none
  let default : Settings := {}
  return {
    modelName := ← Json.optional? Json.text? modelName
    arenaLimit := ← Json.optional? Json.size? arenaLimit
    alignment := ← Json.orDefault? default.alignment Json.size? alignment
    emission := ← Json.orDefault? default.emission Emission.ofJson? emission
    maxPending := ← Json.optional? Json.size? maxPending
    runtimeHeader := ← Json.orDefault? default.runtimeHeader Json.text? runtimeHeader
    contextName := ← Json.orDefault? default.contextName Json.text? contextName }

/-- The settings that a document spells, not yet validated. -/
def Settings.ofText? (text : String) : Option Settings := do
  Settings.ofJson? (← Json.read? text)

end TensorArena
