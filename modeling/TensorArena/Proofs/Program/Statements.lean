import TensorArena.Proofs.Program.Fragments
import TensorArena.Proofs.Program.Rendering
import TensorArena.Proofs.Program.Session
import TensorArena.Proofs.Program.Settling

/-!
# The statements of a program

The function of a source has a line for every registration, evaluation and flush of the program, and
one for every construction of an instance that has parameters. The lines are written along a replay:
each of them says what the replay did at its step.
-/

set_option autoImplicit false

namespace TensorArena

/-! ### Lines -/

def Instance.declarationLine (shared : Instance) (descriptor : Descriptor) : String :=
  "static " ++ (descriptor.typeName shared.form ++ " " ++ shared.symbol ++ ";")

def Instance.constructionLine (shared : Instance) (descriptor : Descriptor) : String :=
  shared.symbol ++ " = " ++ descriptor.typeName shared.form ++ "(" ++
    ", ".intercalate (shared.key.params.map Param.render) ++ ");"

/-- The line that adds a tensor to a context; `className` and `place` are those of its storage. -/
def Tensor.registrationLine (tensor : Tensor) (context className place : String)
    (refcount : Nat) : String :=
  context ++ ".add(new " ++ className ++ "<" ++ tensor.kind.cType ++ ">(" ++
    braced (tensor.shape.map fun dim => toString dim.toNat) ++ ", " ++ place ++
    SourceUnit.quantizationArgument tensor.quantization ++ "), " ++ Literal.quoted tensor.name ++
    s!", {refcount});"

/-- The line that queues an evaluation of an instance, with the tensors bound to its operands. -/
def Instance.evaluationLine (shared : Instance) (context : String)
    (inputs outputs : List (String × String)) : String :=
  context ++ ".push(" ++ shared.symbol ++ ", " ++ renderBindings inputs ++ ", " ++
    renderBindings outputs ++ ");"

def flushLine (context : String) : String := context ++ ".eval();"

/-! ### Lines of a replay -/

namespace SourceUnit

variable (unit : SourceUnit)

/-- How the function refers to a storage of a tensor: to its offset in the arena, or to the array
that holds the tensor's elements. -/
inductive Places (name : String) : Storage → String → String → Prop where
  | arena (offset size : Nat) :
    Places name (.arena offset size) "RamTensor" (toString offset)
  | rom {symbol : String} (array : unit.arraySymbol? name = some symbol) :
    Places name .rom "RomTensor" symbol

/-- The replay has queued the evaluation of an operator under the name of the operator's instance,
and the handler of its type has an operand for each of its tensors. -/
structure Queues (after : Execution Unit) (index : Nat) (operator : Operator) (shared : Instance)
    (handler : Handler) : Prop where
  present : unit.graph.operators[index]? = some operator
  assigned : unit.table.instanceOf? index = some shared
  handled : unit.catalog.get? operator.opType = some handler
  inputs : operator.inputs.length = handler.descriptor.inputs.length
  outputs : operator.outputs.length = handler.descriptor.outputs.length
  queued : after.context.queue.getLast? =
    some ⟨.idle Unit shared.symbol, operator.inputs, operator.outputs⟩

/-- The lines of a step, by what the replay has come to right after it. -/
inductive StepLines (after : Execution Unit) : Step → List String → Prop where
  | declare (id : Nat) : StepLines after (.declare id) []
  | complete {id : Nat} {shared : Instance} (found : unit.table.get? id = some shared)
    (complete : shared.key.params = []) : StepLines after (.construct id) []
  | construct {id : Nat} {shared : Instance} {handler : Handler}
    (found : unit.table.get? id = some shared) (incomplete : shared.key.params ≠ [])
    (handled : unit.catalog.get? shared.key.opType = some handler) :
    StepLines after (.construct id) [shared.constructionLine handler.descriptor]
  | register {name className place : String} {tensor : Tensor} {registration : Registration}
    (declared : unit.graph.tensor? name = some tensor)
    (registered : after.context.registration? name = some registration)
    (placed : unit.Places name registration.storage className place) :
    StepLines after (.register name)
      [tensor.registrationLine unit.settings.contextName className place registration.refcount]
  | enqueue {index : Nat} {operator : Operator} {shared : Instance} {handler : Handler}
    (queues : unit.Queues after index operator shared handler) :
    StepLines after (.enqueue index index shared.id)
      [shared.evaluationLine unit.settings.contextName
        (handler.descriptor.inputs.zip operator.inputs)
        (handler.descriptor.outputs.zip operator.outputs)]
  | flush : StepLines after .flush [flushLine unit.settings.contextName]

/-- The lines of steps as they stand in the function. -/
def indent (lines : List String) : List String := lines.map ("  " ++ ·)

/-- The replay of a unit's program, one step. -/
def advance (execution : Execution Unit) (step : Step) :
    Except ExecutionError (Execution Unit) :=
  execution.step unit.graph unit.plan unit.table (fun _ symbol => .idle Unit symbol) step

/-- The replay goes from one state to another by the steps, and the lines are theirs in the order
of the steps. -/
inductive Emits : Execution Unit → List Step → List String → Execution Unit → Prop where
  | done (execution : Execution Unit) : Emits execution [] [] execution
  | step {execution middle last : Execution Unit} {step : Step} {rest : List Step}
    {lines others : List String} (moved : unit.advance execution step = .ok middle)
    (first : unit.StepLines middle step lines) (later : Emits middle rest others last) :
    Emits execution (step :: rest) (lines ++ others) last

end SourceUnit

/-! ### What is taken over verbatim -/

/-- The handlers write what their descriptors say, and the texts that a unit takes over verbatim
have no line breaks. -/
structure SourceUnit.Plain (unit : SourceUnit) : Prop where
  handlers : ∀ handler ∈ unit.catalog.handlers,
    handler = .ofDescriptor handler.descriptor ∧ Unbroken handler.descriptor.className
  symbols : ∀ shared ∈ unit.table.instances, Block.Solid shared.symbol
  families : ∀ shared ∈ unit.table.instances, Unbroken shared.key.family
  params : ∀ shared ∈ unit.table.instances, Param.AllInline shared.key.params
  context : Block.Solid unit.settings.contextName

/-- The handler of an operator has operands for its tensors, and it is that of its instance. -/
def SourceUnit.Fits (unit : SourceUnit) : Prop :=
  ∀ (index : Nat) (operator : Operator) (shared : Instance),
    unit.graph.operators[index]? = some operator → unit.table.instanceOf? index = some shared →
    shared.key.opType = operator.opType ∧
      ∃ handler, unit.catalog.get? operator.opType = some handler ∧
        operator.inputs.length = handler.descriptor.inputs.length ∧
        operator.outputs.length = handler.descriptor.outputs.length

/-- An evaluation is that of an operator by its own instance. -/
def Step.IsAssigned (table : InstanceTable) : Step → Prop
  | .enqueue position index id => position = index ∧
    ∃ shared, table.instanceOf? index = some shared ∧ table.get? id = some shared ∧ shared.id = id
  | _ => True

/-- The instances declared so far have the names that the table gives them. -/
def Execution.Named {World : Type} (table : InstanceTable) (execution : Execution World) : Prop :=
  ∀ (id : Nat) (symbol : String), execution.declared.lookup id = some symbol →
    ∃ shared, table.get? id = some shared ∧ shared.symbol = symbol

namespace Execution

variable {World : Type} {execution middle : Execution World}

theorem Named.step {graph : Graph} {plan : Plan} {table : InstanceTable}
    {kernel : Nat → String → Kernel World} {step : Step} (named : execution.Named table)
    (moved : execution.step graph plan table kernel step = .ok middle) : middle.Named table := by
  have kept (outcome : Outcome World) (success : execution.withOutcome outcome = .ok middle) :
      middle.Named table := by
    rw [(withOutcome_eq_ok success).2]
    exact named
  cases step with
  | declare id =>
    unfold Execution.step declare at moved
    dsimp only at moved
    split at moved
    next shared found =>
      cases moved
      intro other symbol listed
      rw [List.lookup_cons] at listed
      split at listed
      next same =>
        rw [eq_of_beq same]
        exact ⟨shared, found, Option.some.inj listed⟩
      · exact named other symbol listed
    · cases moved
  | construct id =>
    cases moved
    exact named
  | register tensor =>
    unfold Execution.step register at moved
    dsimp only at moved
    split at moved
    · exact kept _ moved
    · cases moved
  | enqueue position index id =>
    unfold Execution.step enqueue at moved
    dsimp only at moved
    split at moved
    · cases moved
    · split at moved
      · cases moved
      · exact kept _ moved
  | flush => exact kept _ moved

end Execution

/-! ### One step -/

namespace SourceUnit

variable {unit : SourceUnit} {execution middle last : Execution Unit} {fragment : Fragment}

theorem findInstance_eq_ok_iff {id : Nat} {shared : Instance} :
    unit.findInstance id = .ok shared ↔ unit.table.get? id = some shared := by
  unfold findInstance
  split
  next found => simp [found]
  next none => simp [none]

theorem findHandler_eq_ok_iff {shared : Instance} {handler : Handler} :
    unit.findHandler shared = .ok handler ↔
      unit.catalog.get? shared.key.opType = some handler := by
  unfold findHandler
  split
  next found => simp [found]
  next none => simp [none]

theorem findTensor_eq_ok_iff {name : String} {tensor : Tensor} :
    unit.findTensor name = .ok tensor ↔ unit.graph.tensor? name = some tensor := by
  unfold findTensor
  split
  next found => simp [found]
  next none => simp [none]

theorem Plain.handler_eq (plain : unit.Plain) {opType : String} {handler : Handler}
    (found : unit.catalog.get? opType = some handler) :
    handler = .ofDescriptor handler.descriptor ∧ Unbroken handler.descriptor.className :=
  plain.handlers handler (List.mem_of_find?_eq_some found)

/-- Code that is written with an instance and its handler is written by a descriptor's handler. -/
theorem Plain.of_handled (plain : unit.Plain) {id : Nat}
    {next : Instance → Handler → Except ProgramError Fragment}
    (rendered : (do
      let shared ← unit.findInstance id
      let handler ← unit.findHandler shared
      next shared handler) = .ok fragment) :
    ∃ shared handler, unit.table.get? id = some shared ∧ shared ∈ unit.table.instances ∧
      unit.catalog.get? shared.key.opType = some handler ∧
      next shared (.ofDescriptor handler.descriptor) = .ok fragment := by
  have ⟨shared, isInstance, rest⟩ := bind_eq_ok.mp rendered
  have ⟨handler, isHandler, made⟩ := bind_eq_ok.mp rest
  have found := findInstance_eq_ok_iff.mp isInstance
  have handled := findHandler_eq_ok_iff.mp isHandler
  refine ⟨shared, handler, found, List.mem_of_getElem? found, handled, ?_⟩
  rw [← (plain.handler_eq handled).1]
  exact made

theorem Plain.unbroken_typeName (plain : unit.Plain) {shared : Instance} {handler : Handler}
    (listed : shared ∈ unit.table.instances)
    (found : unit.catalog.get? shared.key.opType = some handler) :
    Unbroken (handler.descriptor.typeName shared.form) :=
  Descriptor.unbroken_typeName (plain.handler_eq found).2 (plain.families shared listed)

/-- A solid line becomes one line of the function. -/
theorem written_statement {line : String} (solid : Block.Solid line) :
    Written (indent [line]) (statement line).statement :=
  Block.written_reindent_row 1 solid

theorem renderStep_construct (plain : unit.Plain) {id : Nat}
    (rendered : unit.renderStep (.construct id) = .ok fragment) :
    ∃ lines, unit.StepLines middle (.construct id) lines ∧
      Written (indent lines) fragment.statement := by
  have ⟨shared, handler, found, listed, handled, made⟩ := plain.of_handled rendered
  have whole := pure_eq_ok.mp made
  by_cases complete : shared.key.params = []
  · have nothing : handler.descriptor.construct shared.form = none := by
      simp [Descriptor.construct, Instance.form, complete]
    have same : (Handler.ofDescriptor handler.descriptor).construct shared.form = none := nothing
    rw [same] at whole
    exact ⟨[], .complete found complete, whole ▸ Written.nil⟩
  · have line : (Handler.ofDescriptor handler.descriptor).construct shared.form =
        some (shared.constructionLine handler.descriptor) :=
      if_neg (by simpa [Instance.form] using complete)
    rw [line] at whole
    refine ⟨_, .construct found complete handled, whole ▸ written_statement ?_⟩
    have arguments : ∀ text ∈ shared.key.params.map Param.render, Unbroken text := by
      rw [← Param.renderAll_eq_map]
      exact Param.unbroken_renderAll _ (plain.params shared listed)
    apply Block.Solid.append _ (by decide)
    apply Block.Solid.append _ (unbroken_intercalate (by decide) arguments)
    apply Block.Solid.append _ (by decide)
    apply Block.Solid.append _ (plain.unbroken_typeName listed handled)
    exact (plain.symbols shared listed).append (by decide)

theorem storageTerm_eq_ok {entry : PlanEntry} {name className place : String}
    (success : unit.storageTerm entry name = .ok (className, place)) :
    unit.Places name entry.storage className place := by
  unfold storageTerm at success
  cases storage : entry.storage with
  | arena offset size =>
    rw [storage] at success
    cases success
    exact .arena offset size
  | rom =>
    rw [storage] at success
    dsimp only at success
    split at success
    next symbol array =>
      cases success
      exact .rom array
    · cases success

theorem Places.unbroken {name className place : String} {storage : Storage}
    (placed : unit.Places name storage className place) : Unbroken className ∧ Unbroken place := by
  cases placed with
  | arena offset size => exact ⟨by decide, unbroken_natural offset⟩
  | rom array => exact ⟨by decide, unbroken_arraySymbol array⟩

theorem solid_registrationLine (plain : unit.Plain) (tensor : Tensor) {className place : String}
    (unbroken : Unbroken className ∧ Unbroken place) (refcount : Nat) :
    Block.Solid (tensor.registrationLine unit.settings.contextName className place refcount) := by
  have dims : Unbroken (braced (tensor.shape.map fun dim => toString dim.toNat)) := by
    apply unbroken_braced
    intro text member
    have ⟨dim, _, same⟩ := List.mem_map.mp member
    exact same ▸ unbroken_natural dim.toNat
  have count : Unbroken s!", {refcount});" := by
    show Unbroken (", " ++ toString refcount ++ ");")
    simp only [unbroken_append]
    exact ⟨⟨by decide, unbroken_natural refcount⟩, by decide⟩
  apply Block.Solid.append _ count
  apply Block.Solid.append _ (Literal.unbroken_quoted tensor.name)
  apply Block.Solid.append _ (by decide)
  apply Block.Solid.append _ (unbroken_quantizationArgument tensor.quantization)
  apply Block.Solid.append _ unbroken.2
  apply Block.Solid.append _ (by decide)
  apply Block.Solid.append _ dims
  apply Block.Solid.append _ (by decide)
  apply Block.Solid.append _ tensor.kind.unbroken_cType
  apply Block.Solid.append _ (by decide)
  apply Block.Solid.append _ unbroken.1
  exact plain.context.append (by decide)

/-- A registration that succeeds registers what the plan says. -/
theorem advance_register {name : String}
    (moved : unit.advance execution (.register name) = .ok middle) :
    ∃ entry, unit.plan.entry? name = some entry ∧
      middle.context.registration? name = some ⟨name, entry.storage, entry.refcount⟩ := by
  unfold advance Execution.step Execution.register at moved
  dsimp only at moved
  split at moved
  next entry found =>
    have ⟨success, same⟩ := Execution.withOutcome_eq_ok moved
    refine ⟨entry, found, ?_⟩
    rcases Context.register_cases execution.context name entry.storage entry.refcount with
      ⟨error, failed⟩ | ⟨fresh, registered⟩
    · rw [failed] at success
      cases success
    · rw [same, registered]
      have added := Context.registration?_append execution.context
        ⟨name, entry.storage, entry.refcount⟩ (Context.refcount?_eq_none_iff.mp fresh) name
      rw [if_pos rfl] at added
      exact added
  · cases moved

/-- A registration is written with the storage that the plan has for the tensor. -/
theorem registration_cases {name line : String} (written : unit.registration name = .ok line) :
    ∃ tensor entry className place, unit.graph.tensor? name = some tensor ∧
      unit.plan.entry? name = some entry ∧ unit.Places name entry.storage className place ∧
      line = tensor.registrationLine unit.settings.contextName className place entry.refcount := by
  unfold registration at written
  have ⟨tensor, isTensor, rest⟩ := bind_eq_ok.mp written
  have declared : unit.graph.tensor? name = some tensor := findTensor_eq_ok_iff.mp isTensor
  split at rest
  next entry found =>
    have ⟨⟨className, place⟩, isTerm, whole⟩ := bind_eq_ok.mp rest
    refine ⟨tensor, entry, className, place, declared, found, storageTerm_eq_ok isTerm, ?_⟩
    rw [← pure_eq_ok.mp whole, ← (Graph.tensor?_eq_some declared).2]
    rfl
  · cases rest

theorem renderStep_register (plain : unit.Plain) {name : String}
    (moved : unit.advance execution (.register name) = .ok middle)
    (rendered : unit.renderStep (.register name) = .ok fragment) :
    ∃ lines, unit.StepLines middle (.register name) lines ∧
      Written (indent lines) fragment.statement := by
  have ⟨entry, isEntry, registered⟩ := advance_register moved
  have ⟨line, isLine, made⟩ := bind_eq_ok.mp rendered
  have ⟨tensor, other, className, place, declared, isOther, placed, whole⟩ :=
    registration_cases isLine
  rw [Option.some.inj (isOther.symm.trans isEntry)] at placed whole
  rw [← pure_eq_ok.mp made, whole]
  exact ⟨_, .register declared registered placed,
    written_statement (solid_registrationLine plain tensor placed.unbroken entry.refcount)⟩

theorem solid_evaluationLine (plain : unit.Plain) {shared : Instance}
    (listed : shared ∈ unit.table.instances) (inputs outputs : List (String × String)) :
    Block.Solid (shared.evaluationLine unit.settings.contextName inputs outputs) := by
  apply Block.Solid.append _ (by decide)
  apply Block.Solid.append _ (unbroken_renderBindings outputs)
  apply Block.Solid.append _ (by decide)
  apply Block.Solid.append _ (unbroken_renderBindings inputs)
  apply Block.Solid.append _ (by decide)
  apply Block.Solid.append _ (plain.symbols shared listed).unbroken
  exact plain.context.append (by decide)

/-- An evaluation that is enqueued waits under the name of an instance that has been declared. -/
theorem advance_enqueue {position index id : Nat}
    (moved : unit.advance execution (.enqueue position index id) = .ok middle) :
    ∃ operator symbol, unit.graph.operators[index]? = some operator ∧
      execution.declared.lookup id = some symbol ∧
      middle.context.queue.getLast? =
        some ⟨.idle Unit symbol, operator.inputs, operator.outputs⟩ := by
  unfold advance Execution.step Execution.enqueue at moved
  dsimp only at moved
  split at moved
  · cases moved
  next operator present =>
    split at moved
    · cases moved
    next symbol declared =>
      have ⟨success, same⟩ := Execution.withOutcome_eq_ok moved
      refine ⟨operator, symbol, present, declared, ?_⟩
      rcases Context.enqueue_cases execution.context
        ⟨.idle Unit symbol, operator.inputs, operator.outputs⟩ with ⟨error, failed⟩ | queued
      · rw [failed] at success
        cases success
      · rw [same, queued]
        exact List.getLast?_concat

theorem renderStep_enqueue (plain : unit.Plain) (fits : unit.Fits) {position index id : Nat}
    (named : execution.Named unit.table)
    (assigned : (Step.enqueue position index id).IsAssigned unit.table)
    (moved : unit.advance execution (.enqueue position index id) = .ok middle)
    (rendered : unit.renderStep (.enqueue position index id) = .ok fragment) :
    ∃ lines, unit.StepLines middle (.enqueue position index id) lines ∧
      Written (indent lines) fragment.statement := by
  have ⟨samePosition, shared, isAssigned, found, sameId⟩ := assigned
  have ⟨operator, symbol, present, declared, queued⟩ := advance_enqueue moved
  have ⟨known, foundKnown, sameSymbol⟩ := named id symbol declared
  -- The instance that was declared is the one that the table assigns to the operator.
  have sameInstance : shared = known := Option.some.inj (found.symm.trans foundKnown)
  have ⟨sameType, handler, handled, inputs, outputs⟩ := fits index operator shared present isAssigned
  have queues : unit.Queues middle index operator shared handler :=
    ⟨present, isAssigned, handled, inputs, outputs, by rw [sameInstance, sameSymbol, queued]⟩
  have ownHandler : unit.findHandler shared = .ok handler := by
    rw [findHandler_eq_ok_iff, sameType]
    exact handled
  unfold renderStep at rendered
  dsimp only at rendered
  rw [present, findInstance_eq_ok_iff.mpr found] at rendered
  dsimp only at rendered
  rw [ok_bind, ownHandler, ok_bind, (plain.handler_eq handled).1] at rendered
  rw [← pure_eq_ok.mp rendered, samePosition, ← sameId]
  exact ⟨_, .enqueue queues,
    written_statement (solid_evaluationLine plain (List.mem_of_getElem? found) _ _)⟩

/-- A step of a replay writes its lines. -/
theorem renderStep_lines (plain : unit.Plain) (fits : unit.Fits) {step : Step}
    (named : execution.Named unit.table) (assigned : step.IsAssigned unit.table)
    (moved : unit.advance execution step = .ok middle)
    (rendered : unit.renderStep step = .ok fragment) :
    ∃ lines, unit.StepLines middle step lines ∧ Written (indent lines) fragment.statement := by
  cases step with
  | declare id =>
    unfold renderStep at rendered
    have ⟨shared, _, rest⟩ := bind_eq_ok.mp rendered
    have ⟨handler, _, made⟩ := bind_eq_ok.mp rest
    rw [← pure_eq_ok.mp made]
    exact ⟨[], .declare id, Written.nil⟩
  | construct id => exact renderStep_construct plain rendered
  | register name => exact renderStep_register plain moved rendered
  | enqueue position index id => exact renderStep_enqueue plain fits named assigned moved rendered
  | flush =>
    cases rendered
    exact ⟨_, .flush, written_statement (plain.context.append (by decide))⟩

/-! ### A run -/

theorem emits_of_foldlM (plain : unit.Plain) (fits : unit.Fits) {steps : List Step}
    {fragments : List Fragment} (named : execution.Named unit.table)
    (assigned : ∀ step ∈ steps, step.IsAssigned unit.table)
    (moved : steps.foldlM unit.advance execution = .ok last)
    (rendered : List.Forall₂ (fun step fragment => unit.renderStep step = .ok fragment)
      steps fragments) :
    ∃ lines, unit.Emits execution steps lines last ∧
      Written (indent lines) (String.join (fragments.map Fragment.statement)) := by
  -- The names of the declared instances are all that a step has to know about those before it.
  induction rendered generalizing execution with
  | nil =>
    cases moved
    exact ⟨[], .done _, Written.nil⟩
  | cons isFirst _ ih =>
    rw [List.foldlM_cons] at moved
    rw [List.forall_mem_cons] at assigned
    have ⟨middle, here, later⟩ := bind_eq_ok.mp moved
    have ⟨lines, first, written⟩ := renderStep_lines plain fits named assigned.1 here isFirst
    have ⟨others, emits, writtenOthers⟩ := ih (named.step here) assigned.2 later
    refine ⟨lines ++ others, .step here first emits, ?_⟩
    rw [List.map_cons, String.join_cons, indent, List.map_append]
    exact written.append writtenOthers

end SourceUnit

end TensorArena
