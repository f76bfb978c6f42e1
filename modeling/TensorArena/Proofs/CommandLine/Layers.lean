import TensorArena.CommandLine.Run
import TensorArena.Proofs.Results

/-!
# Layers of settings

A flag of the command line takes the place of what a file or the environment say. What they say is
checked before that, so it must be acceptable in itself, but otherwise it makes no difference.
-/

set_option autoImplicit false

namespace TensorArena

namespace Settings

/-- The limit that the environment gives, if it gives one. -/
def environmentLimit (environment : String → Option String) :
    Except SettingsError (Option Nat) :=
  match environment arenaLimitVariable with
  | none => .ok none
  | some value =>
    match sizeOfText? (Blank.trim value.toList) with
    | some limit => .ok (some limit)
    | none => .error (.invalidVariable arenaLimitVariable value)

/-- The settings with a limit, if there is one, and with a switch to eager emission. -/
def withLimit (limit : Option Nat) (eager : Bool) (settings : Settings) : Settings :=
  { settings with
    emission := if eager then .eager else settings.emission
    arenaLimit := limit.or settings.arenaLimit }

theorem withEnvironment_eq (settings : Settings) (environment : String → Option String) :
    settings.withEnvironment environment =
      (environmentLimit environment).map fun limit => settings.withLimit limit
        ((environment eagerVariable).any fun value => isOn value.toList) := by
  unfold withEnvironment environmentLimit withLimit
  dsimp only
  cases (environment eagerVariable).any fun value => isOn value.toList <;>
  cases environment arenaLimitVariable with
  | none => rfl
  | some value => dsimp only; cases sizeOfText? (Blank.trim value.toList) <;> rfl

/-- A name must be an identifier, if there is one. -/
def checkName : Option String → Except SettingsError Unit
  | none => .ok ()
  | some name => checkIdentifier "model_name" name

theorem validate_eq (settings : Settings) :
    settings.validate =
      if !isPowerOfTwo settings.alignment then .error (.invalidAlignment settings.alignment)
      else if settings.maxPending = some 0 then .error .invalidMaxPending
      else checkName settings.modelName >>= fun _ =>
        checkIdentifier "context_var" settings.contextName := by
  unfold validate
  cases settings.modelName <;> rfl

end Settings

namespace CommandLine

/-! ### The stages of layering -/

/-- The settings that come from a file's through the environment and the command line. -/
def layered (environment : String → Option String) (overrides : Overrides) (settings : Settings) :
    Except Failure Settings :=
  match settings.withEnvironment environment with
  | .error error => .error ⟨"invalid environment override", [error.message]⟩
  | .ok settings =>
    match (overrides.apply settings).validate with
    | .error error => .error ⟨"invalid configuration", [error.message]⟩
    | .ok () => .ok (overrides.apply settings)

/-- What the settings in force are for a tree of files. -/
def outcome (tree : FileTree) (environment : String → Option String) (config : Option String)
    (overrides : Overrides) : Except Failure Settings :=
  ((effectiveSettings FileTree.access environment config overrides).run.run tree).1

/-- The settings that are read, not yet checked: those of the file, or the default ones without a
file. -/
def Gives (tree : FileTree) : Option String → Settings → Prop
  | none, settings => settings = {}
  | some path, settings => ∃ text, tree.read path = .ok text.toUTF8 ∧
      Settings.ofText? text = some settings

variable {tree : FileTree} {environment : String → Option String} {overrides : Overrides}
  {settings : Settings}

theorem readText_access {path text : String} (read : tree.read path = .ok text.toUTF8) :
    (FileTree.access.readText path).run tree = pure (.ok text, tree) := by
  have decoded : String.fromUTF8? text.toByteArray = some text := dif_pos text.isValidUTF8
  simp [Files.readText, FileTree.access, read, decoded]

theorem loadSettings_access {path : String} (gives : Gives tree (some path) settings) :
    (loadSettings FileTree.access path).run.run tree =
      pure (match settings.validate with
        | .error error => .error ⟨"failed to load config " ++ path, [error.message]⟩
        | .ok () => .ok settings, tree) := by
  have ⟨text, read, parsed⟩ := gives
  unfold loadSettings
  dsimp only
  rw [ExceptT.run_bind, StateT.run_bind, ExceptT.run_liftM, StateT.run_map,
    readText_access read]
  simp only [pure_bind, map_pure, parsed]
  cases settings.validate <;> rfl

/-- What is left to do once the settings of a file, or the default ones, are there. -/
theorem run_layers (tree : FileTree) (environment : String → Option String) (overrides : Overrides)
    (settings : Settings) :
    (match settings.withEnvironment environment with
      | .error error => throw ⟨"invalid environment override", [error.message]⟩
      | .ok settings =>
        match (overrides.apply settings).validate with
        | .error error => throw ⟨"invalid configuration", [error.message]⟩
        | .ok () => pure (overrides.apply settings) :
      ExceptT Failure (StateM FileTree) Settings).run.run tree =
      pure (layered environment overrides settings, tree) := by
  unfold layered
  cases settings.withEnvironment environment with
  | error => rfl
  | ok settings =>
    dsimp only
    cases (overrides.apply settings).validate <;> rfl

theorem outcome_none :
    outcome tree environment none overrides = layered environment overrides {} :=
  congrArg Prod.fst (run_layers tree environment overrides {})

/-- A file is checked when it is read, before anything is laid over it. -/
theorem outcome_some {path : String} (gives : Gives tree (some path) settings) :
    outcome tree environment (some path) overrides =
      match settings.validate with
      | .error error => .error ⟨"failed to load config " ++ path, [error.message]⟩
      | .ok () => layered environment overrides settings := by
  unfold outcome effectiveSettings
  dsimp only
  rw [ExceptT.run_bind, StateT.run_bind, loadSettings_access gives, pure_bind]
  cases settings.validate with
  | error => rfl
  | ok => exact congrArg Prod.fst (run_layers tree environment overrides settings)

/-- What is read is accepted before anything is laid over it; the default settings always are. -/
def approve (config : Option String) (settings : Settings) : Except Failure Settings :=
  match config with
  | none => .ok settings
  | some path =>
    match settings.validate with
    | .error error => .error ⟨"failed to load config " ++ path, [error.message]⟩
    | .ok () => .ok settings

theorem outcome_of_gives {config : Option String} (gives : Gives tree config settings) :
    outcome tree environment config overrides =
      (approve config settings).bind (layered environment overrides) := by
  cases config with
  | none =>
    obtain rfl := gives
    exact outcome_none
  | some path =>
    rw [outcome_some gives]
    unfold approve
    dsimp only
    cases settings.validate <;> rfl

/-! ### Fields that flags set -/

namespace Overrides

/-- The settings agree in every field that no flag sets. -/
structure Agree (overrides : Overrides) (left right : Settings) : Prop where
  modelName : overrides.model = none → left.modelName = right.modelName
  arenaLimit : overrides.arenaLimit = none → left.arenaLimit = right.arenaLimit
  alignment : overrides.alignment = none → left.alignment = right.alignment
  emission : left.emission = right.emission
  maxPending : left.maxPending = right.maxPending
  runtimeHeader : left.runtimeHeader = right.runtimeHeader
  contextName : left.contextName = right.contextName

/-- What the settings have in the fields that flags set would be accepted without the flags. -/
structure Accepts (overrides : Overrides) (settings : Settings) : Prop where
  modelName : overrides.model ≠ none →
    ∀ name, settings.modelName = some name → Identifier.isIdentifier name = true
  alignment : overrides.alignment ≠ none → isPowerOfTwo settings.alignment = true

/-- The environments agree, but for the limit if a flag sets that; then each of them has none, or
one that is a number. -/
structure Surrounds (overrides : Overrides) (left right : String → Option String) : Prop where
  agree : ∀ name, name ≠ Settings.arenaLimitVariable ∨ overrides.arenaLimit = none →
    left name = right name
  legible : overrides.arenaLimit ≠ none → ∀ value,
    left Settings.arenaLimitVariable = some value ∨
      right Settings.arenaLimitVariable = some value →
    sizeOfText? (Blank.trim value.toList) ≠ none

variable {left right : Settings}

theorem Agree.validate_eq (agree : overrides.Agree left right) (isLeft : overrides.Accepts left)
    (isRight : overrides.Accepts right) : left.validate = right.validate := by
  have named {settings : Settings} (accepted : overrides.Accepts settings)
      (flag : overrides.model ≠ none) : Settings.checkName settings.modelName = .ok () := by
    cases chosen : settings.modelName with
    | none => rfl
    | some name => exact if_pos (accepted.modelName flag name chosen)
  have names : Settings.checkName left.modelName = Settings.checkName right.modelName := by
    by_cases flag : overrides.model = none
    · rw [agree.modelName flag]
    · rw [named isLeft flag, named isRight flag]
  rw [Settings.validate_eq, Settings.validate_eq, names, agree.maxPending, agree.contextName]
  by_cases flag : overrides.alignment = none
  · rw [agree.alignment flag]
  · rw [isLeft.alignment flag, isRight.alignment flag]
    rfl

/-- Whatever limits the environments give, they do not show where a flag sets the limit. -/
theorem Agree.apply_eq (agree : overrides.Agree left right) (eager : Bool)
    {leftLimit rightLimit : Option Nat}
    (limits : overrides.arenaLimit = none → leftLimit = rightLimit) :
    overrides.apply (left.withLimit leftLimit eager) =
      overrides.apply (right.withLimit rightLimit eager) := by
  have pick {α : Type} {flag first second : Option α} (same : flag = none → first = second) :
      flag.or first = flag.or second := by
    cases flag with
    | none => rw [same rfl]
    | some => rfl
  have alignment : overrides.alignment.getD left.alignment =
      overrides.alignment.getD right.alignment := by
    cases flag : overrides.alignment with
    | none => exact agree.alignment flag
    | some => rfl
  unfold apply Settings.withLimit
  simp only [Settings.mk.injEq]
  refine ⟨pick agree.modelName, pick fun flag => ?_, alignment, ?_, agree.maxPending,
    agree.runtimeHeader, agree.contextName⟩
  · rw [limits flag, agree.arenaLimit flag]
  · rw [agree.emission]

/-- Environments around the same flags are refused both or none of them, and the limits that they
give differ only where a flag sets the limit. -/
theorem Surrounds.limits {leftEnvironment rightEnvironment : String → Option String}
    (surrounds : overrides.Surrounds leftEnvironment rightEnvironment) :
    Settings.environmentLimit leftEnvironment = Settings.environmentLimit rightEnvironment ∨
      overrides.arenaLimit ≠ none ∧
        (∃ limit, Settings.environmentLimit leftEnvironment = .ok limit) ∧
        ∃ limit, Settings.environmentLimit rightEnvironment = .ok limit := by
  by_cases flag : overrides.arenaLimit = none
  · left
    unfold Settings.environmentLimit
    rw [surrounds.agree _ (.inr flag)]
  · right
    have legible {environment : String → Option String}
        (numbers : ∀ value, environment Settings.arenaLimitVariable = some value →
          sizeOfText? (Blank.trim value.toList) ≠ none) :
        ∃ limit, Settings.environmentLimit environment = .ok limit := by
      unfold Settings.environmentLimit
      cases given : environment Settings.arenaLimitVariable with
      | none => exact ⟨none, rfl⟩
      | some value =>
        have ⟨limit, read⟩ := Option.ne_none_iff_exists'.mp (numbers value given)
        exact ⟨some limit, by dsimp only; rw [read]⟩
    exact ⟨flag, legible fun value given => surrounds.legible flag value (.inl given),
      legible fun value given => surrounds.legible flag value (.inr given)⟩

end Overrides

theorem layered_eq {left right : Settings} (agree : overrides.Agree left right)
    {leftEnvironment rightEnvironment : String → Option String}
    (surrounds : overrides.Surrounds leftEnvironment rightEnvironment) :
    layered leftEnvironment overrides left = layered rightEnvironment overrides right := by
  have eager := surrounds.agree Settings.eagerVariable (.inl (by decide))
  unfold layered
  rw [Settings.withEnvironment_eq, Settings.withEnvironment_eq, eager]
  rcases surrounds.limits with same | ⟨flag, ⟨leftLimit, isLeft⟩, rightLimit, isRight⟩
  · rw [same]
    cases Settings.environmentLimit rightEnvironment with
    | error => rfl
    | ok limit =>
      simp only [Except.map]
      rw [agree.apply_eq _ fun _ => rfl]
  · rw [isLeft, isRight]
    simp only [Except.map]
    rw [agree.apply_eq _ fun none => absurd none flag]

/-- Later layers win. Where a flag is given, two files that are accepted as they are, and two
environments whose limits are numbers, lead to the same settings or to the same failure, whatever they
say instead of the flag. What is not accepted by itself is refused, whatever flags are given. -/
theorem flags_win (overrides : Overrides) (config : Option String) (leftTree rightTree : FileTree)
    (left right : Settings) (givesLeft : Gives leftTree config left)
    (givesRight : Gives rightTree config right) (agree : overrides.Agree left right)
    (isLeft : overrides.Accepts left) (isRight : overrides.Accepts right)
    (leftEnvironment rightEnvironment : String → Option String)
    (surrounds : overrides.Surrounds leftEnvironment rightEnvironment) :
    outcome leftTree leftEnvironment config overrides =
        outcome rightTree rightEnvironment config overrides ∧
      (∀ tree environment path settings error, Gives tree (some path) settings →
        settings.validate = .error error → outcome tree environment (some path) overrides =
          .error ⟨"failed to load config " ++ path, [error.message]⟩) ∧
      ∀ tree environment settings error, Gives tree config settings →
        settings.validate = .ok () → Settings.environmentLimit environment = .error error →
          outcome tree environment config overrides =
            .error ⟨"invalid environment override", [error.message]⟩ := by
  refine ⟨?_, ?_, ?_⟩
  · have admitted : (approve config left).bind (layered leftEnvironment overrides) =
        (approve config right).bind (layered rightEnvironment overrides) := by
      cases config with
      | none => exact layered_eq agree surrounds
      | some path =>
        unfold approve
        rw [agree.validate_eq isLeft isRight]
        cases right.validate with
        | error => rfl
        | ok => exact layered_eq agree surrounds
    rw [outcome_of_gives givesLeft, admitted, outcome_of_gives givesRight]
  · intro tree environment path settings error gives refused
    rw [outcome_some gives, refused]
  · intro tree environment settings error gives accepted refused
    have admitted : approve config settings = .ok settings := by
      unfold approve
      rw [accepted]
      cases config <;> rfl
    rw [outcome_of_gives gives, admitted]
    show layered environment overrides settings = _
    unfold layered
    rw [Settings.withEnvironment_eq, refused]
    rfl

/-- A tree with nothing but a file of settings. -/
def settingsFile (text : String) : FileTree := ⟨[(["c"], text.toUTF8)]⟩

/-- An environment with nothing but a limit. -/
def limitVariable (value : String) (name : String) : Option String :=
  if name = Settings.arenaLimitVariable then some value else none

theorem components_settingsFile : FileTree.components "c" = ["c"] := by
  have other : (String.Pos.Raw.get "c" 0 == String.Pos.Raw.get "/" 0) = false := by decide +kernel
  have next : String.Pos.Raw.next "c" (String.Pos.Raw.unoffsetBy 0 0) = ⟨1⟩ := by decide +kernel
  unfold FileTree.components String.splitOn
  -- The search for slashes is at the first character, and then at the end.
  rw [if_neg (by decide), String.splitOnAux, if_neg (by decide +kernel), other,
    if_neg Bool.false_ne_true, next, String.splitOnAux, if_pos (by decide +kernel)]
  decide +kernel

theorem settingsFile_gives {text : String} {settings : Settings}
    (parsed : Settings.ofText? text = some settings) :
    Gives (settingsFile text) (some "c") settings := by
  have located : (settingsFile text).locate "c" = .ok (.entry ["c"]) := by
    have relative : "c".startsWith "/" = false := by decide +kernel
    unfold FileTree.locate
    rw [components_settingsFile, relative]
    rfl
  have plain : "c".endsWith "/" = false := by decide +kernel
  refine ⟨text, ?_, parsed⟩
  unfold FileTree.read
  rw [located, ok_bind]
  dsimp only
  rw [plain]
  rfl

/-- Two files, and two limits in the environment, that all make way for flags. -/
theorem alignments_overridden :
    outcome (settingsFile "\x7b\"alignment\": 4, \"arena_limit\": 9\x7d") (limitVariable "32")
        (some "c") { alignment := some 8, arenaLimit := some 64 } =
      outcome (settingsFile "\x7b\"alignment\": 16\x7d") (fun _ => none)
        (some "c") { alignment := some 8, arenaLimit := some 64 } := by
  have four : Settings.ofText? "\x7b\"alignment\": 4, \"arena_limit\": 9\x7d" =
      some { alignment := 4, arenaLimit := some 9 } := by decide +kernel
  have sixteen : Settings.ofText? "\x7b\"alignment\": 16\x7d" =
      some { alignment := 16 } := by decide +kernel
  have surrounds : Overrides.Surrounds { alignment := some 8, arenaLimit := some 64 }
      (limitVariable "32") fun _ => none := by
    constructor
    · intro name other
      exact if_neg (other.resolve_right nofun)
    · intro _ value given
      rw [← Option.some.inj (given.resolve_right nofun)]
      decide +kernel
  exact (flags_win { alignment := some 8, arenaLimit := some 64 } (some "c") _ _ _ _
    (settingsFile_gives four) (settingsFile_gives sixteen)
    ⟨fun _ => rfl, nofun, nofun, rfl, rfl, rfl, rfl⟩
    ⟨nofun, fun _ => by decide⟩ ⟨nofun, fun _ => by decide⟩ _ _ surrounds).1

/-- A value that a flag takes the place of still decides whether there are settings at all: an
alignment or a name in a file, and a limit in the environment. -/
theorem masked_values_decide :
    (outcome (settingsFile "\x7b\"alignment\": 6\x7d") (fun _ => none) (some "c")
        { alignment := some 8 } =
        .error ⟨"failed to load config c", ["alignment 6 is not a power of two"]⟩ ∧
      outcome (settingsFile "\x7b\"alignment\": 4\x7d") (fun _ => none) (some "c")
        { alignment := some 8 } = .ok { alignment := 8 }) ∧
    (outcome (settingsFile "\x7b\"model_name\": \"1x\"\x7d") (fun _ => none) (some "c")
        { model := some "net" } =
        .error ⟨"failed to load config c", ["model_name '1x' is not a valid C identifier"]⟩ ∧
      outcome (settingsFile "\x7b\"model_name\": \"x1\"\x7d") (fun _ => none) (some "c")
        { model := some "net" } = .ok { modelName := some "net" }) ∧
    outcome ⟨[]⟩ (limitVariable "lots") none { arenaLimit := some 64 } =
        .error ⟨"invalid environment override",
          ["environment variable ARENAC_ARENA_LIMIT='lots' is invalid"]⟩ ∧
      outcome ⟨[]⟩ (limitVariable "32") none { arenaLimit := some 64 } =
        .ok { arenaLimit := some 64 } := by
  have six : Settings.ofText? "\x7b\"alignment\": 6\x7d" = some { alignment := 6 } := by decide +kernel
  have four : Settings.ofText? "\x7b\"alignment\": 4\x7d" = some { alignment := 4 } := by decide +kernel
  have digit : Settings.ofText? "\x7b\"model_name\": \"1x\"\x7d" =
      some { modelName := some "1x" } := by decide +kernel
  have letter : Settings.ofText? "\x7b\"model_name\": \"x1\"\x7d" =
      some { modelName := some "x1" } := by decide +kernel
  refine ⟨⟨?_, ?_⟩, ⟨?_, ?_⟩, ?_, ?_⟩
  · rw [outcome_some (settingsFile_gives six)]
    rfl
  · rw [outcome_some (settingsFile_gives four)]
    rfl
  · rw [outcome_some (settingsFile_gives digit)]
    rfl
  · rw [outcome_some (settingsFile_gives letter)]
    rfl
  · rw [outcome_none]
    rfl
  · rw [outcome_none]
    rfl

end CommandLine

end TensorArena
