import TensorArena.Arena.Plan
import TensorArena.Program.Instance

/-!
# Program steps

A program declares its instances, registers its tensors, enqueues its evaluations and flushes the
queue. Evaluations are batched; a batch ends before a tensor is registered in a slot that an
evaluation of the batch has yet to give back.
-/

set_option autoImplicit false

namespace TensorArena

/-- One statement of the generated program. -/
inductive Step where
  | declare (id : Nat)
  | construct (id : Nat)
  | register (tensor : String)
  | enqueue (step operator id : Nat)
  | flush
deriving DecidableEq, Repr

inductive Emission where
  /-- Flush only where it is needed, and at the end. -/
  | lazy
  /-- Flush after every evaluation. -/
  | eager
deriving DecidableEq, Repr

def Emission.name : Emission → String
  | .lazy => "lazy"
  | .eager => "eager"

structure Batching where
  emission : Emission := .lazy
  /-- The size at which a batch is flushed. -/
  maxPending : Option Nat := none
deriving DecidableEq, Repr

/-- Why a program cannot be written. -/
inductive ProgramError where
  | missingInstance (operator : String)
  | missingPlanEntry (tensor : String)
  | missingHandler (opType : String)
  /-- A step names an operator that the graph does not have. -/
  | noSuchOperator (operator : Nat)
deriving DecidableEq, Repr

def ProgramError.message : ProgramError → String
  | missingInstance operator => s!"operator {operator} has no deduplicated instance"
  | missingPlanEntry tensor => s!"tensor '{tensor}' has no plan entry"
  | missingHandler opType => s!"no handler registered for operator type '{opType}'"
  | noSuchOperator operator => s!"operator {operator} is not in the graph"

/-- The batch being filled: the instances declared so far, the batch's first step and its size. -/
structure Batch where
  declared : List Nat := []
  first : Option Nat := none
  pending : Nat := 0
deriving Repr

namespace Batch

/-- The batch after a flush. -/
def flushed (batch : Batch) : Batch := { batch with first := none, pending := 0 }

def push (batch : Batch) (step : Nat) : Batch :=
  { batch with first := some (batch.first.getD step), pending := batch.pending + 1 }

/-- Whether the batch is flushed at its present size. -/
def isFull (batch : Batch) (batching : Batching) : Bool :=
  match batching.emission with
  | .eager => true
  | .lazy => batching.maxPending.any fun limit => limit ≤ batch.pending

end Batch

/-- Whether one of the tensors takes over a slot that a step from `first` on gives back. -/
def Plan.reusesSince (plan : Plan) (first : Nat) : List String → Except ProgramError Bool
  | [] => .ok false
  | name :: rest =>
    match plan.entry? name with
    | none => .error (.missingPlanEntry name)
    | some entry => do
      let later ← plan.reusesSince first rest
      return entry.availableAfter.any (fun freed => first ≤ freed) || later

/-- Whether a batch must be flushed before the tensors are registered. -/
def Plan.mustFlush (plan : Plan) (batch : Batch) (outputs : List String) :
    Except ProgramError Bool :=
  match batch.first with
  | none => .ok false
  | some first => plan.reusesSince first outputs

/-- The steps of one operator, and the batch after it. -/
def assembleOperator (plan : Plan) (table : InstanceTable) (batching : Batching) (step : Nat)
    (operator : Operator) (batch : Batch) : Except ProgramError (List Step × Batch) := do
  let some shared := table.instanceOf? step
    | .error (.missingInstance (operator.describe step))
  let (declaration, batch) : List Step × Batch :=
    if batch.declared.contains shared.id then ([], batch)
    else
      ([.declare shared.id, .construct shared.id],
        { batch with declared := shared.id :: batch.declared })
  let (barrier, batch) : List Step × Batch :=
    if ← plan.mustFlush batch operator.outputs then ([.flush], batch.flushed) else ([], batch)
  let batch := batch.push step
  let (ending, batch) : List Step × Batch :=
    if batch.isFull batching then ([.flush], batch.flushed) else ([], batch)
  return (declaration ++ barrier ++ operator.outputs.map Step.register ++
    [.enqueue step step shared.id] ++ ending, batch)

def assembleFrom (plan : Plan) (table : InstanceTable) (batching : Batching) :
    Nat → List Operator → Batch → Except ProgramError (List Step)
  | _, [], batch => .ok (if 0 < batch.pending then [.flush] else [])
  | step, operator :: rest, batch => do
    let (steps, batch) ← assembleOperator plan table batching step operator batch
    return steps ++ (← assembleFrom plan table batching (step + 1) rest batch)

/-- Registers the tensors that are there before the first evaluation. -/
def Plan.entrySteps (plan : Plan) : List Step :=
  (plan.entries.filter fun entry => entry.role ≠ .intermediate).map fun entry =>
    .register entry.name

/-- The program of a graph for a plan and a table of instances. -/
def Graph.assemble (graph : Graph) (plan : Plan) (table : InstanceTable) (batching : Batching) :
    Except ProgramError (List Step) := do
  return plan.entrySteps ++ (← assembleFrom plan table batching 0 graph.operators {})

end TensorArena
