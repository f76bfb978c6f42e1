import TensorArena.Program.Source
import TensorArena.Proofs.CommandLine.Layers
import TensorArena.Proofs.Text.Symbols

/-!
# Model names

Sanitizing makes an identifier of every text, and it changes a text only if that is not one already.
The name that is derived from a graph's is therefore accepted where a name is chosen.
-/

set_option autoImplicit false

namespace TensorArena

/-- The settings with another choice of a name for the model. -/
def Settings.named (settings : Settings) (name : Option String) : Settings :=
  { settings with modelName := name }

/-- The unit whose settings choose no name for the model, so that it is derived. -/
def SourceUnit.unnamed (unit : SourceUnit) : SourceUnit :=
  { unit with settings := unit.settings.named none }

theorem Settings.checkIdentifier_sanitize (field text : String) :
    checkIdentifier field (Identifier.sanitize text) = .ok () :=
  if_pos (Identifier.isIdentifier_sanitize text)

/-- Choosing a sanitized name is as good as choosing none. -/
theorem Settings.validate_named_sanitize (settings : Settings) (text : String) :
    (settings.named (some (Identifier.sanitize text))).validate =
      (settings.named none).validate := by
  have same : checkName (settings.named (some (Identifier.sanitize text))).modelName =
      checkName (settings.named none).modelName := checkIdentifier_sanitize _ text
  rw [validate_eq, validate_eq, same]
  rfl

theorem SourceUnit.modelName_unnamed (unit : SourceUnit) :
    unit.unnamed.modelName = Identifier.sanitize unit.graph.name := rfl

/-- The identifiers are the texts that sanitizing makes and those that it keeps, and a derived name
passes the check of a chosen one. -/
theorem Identifier.sanitize_agrees :
    (∀ text, isIdentifier (sanitize text) = true ∧
      (sanitize text = text ↔ isIdentifier text = true) ∧
      sanitize (sanitize text) = sanitize text) ∧
    ∀ unit : SourceUnit,
      Settings.checkIdentifier "model_name" unit.unnamed.modelName = .ok () ∧
        (unit.settings.named (some unit.unnamed.modelName)).validate =
          unit.unnamed.settings.validate := by
  constructor
  · intro text
    exact ⟨isIdentifier_sanitize text, sanitize_eq_self_iff text, sanitize_sanitize text⟩
  · intro unit
    rw [unit.modelName_unnamed]
    exact ⟨Settings.checkIdentifier_sanitize _ _, unit.settings.validate_named_sanitize _⟩

end TensorArena
