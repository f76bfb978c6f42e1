import TensorArena.Program.Context
import TensorArena.Program.Step

/-!
# Executing programs

A program is executed in a context, with a kernel for every operator it enqueues. With kernels
that do nothing the execution is a replay, which checks that all registrations, evaluations and
releases of the program go through.
-/

set_option autoImplicit false

namespace TensorArena

inductive ExecutionError where
  | program (error : ProgramError)
  | context (error : ContextError)
deriving DecidableEq, Repr

/-- The context of an execution, and the instances declared so far with their names. -/
structure Execution (World : Type) where
  context : Context World
  declared : List (Nat × String) := []

namespace Execution

variable {World : Type}

def withOutcome (execution : Execution World) :
    Outcome World → Except ExecutionError (Execution World)
  | (.ok (), context) => .ok { execution with context }
  | (.error error, _) => .error (.context error)

def declare (table : InstanceTable) (execution : Execution World) (id : Nat) :
    Except ExecutionError (Execution World) :=
  match table.get? id with
  | some shared => .ok { execution with declared := (id, shared.symbol) :: execution.declared }
  | none => .error (.program (.missingInstance s!"instance {id}"))

def register (plan : Plan) (execution : Execution World) (tensor : String) :
    Except ExecutionError (Execution World) :=
  match plan.entry? tensor with
  | some entry =>
    execution.withOutcome (execution.context.register tensor entry.storage entry.refcount)
  | none => .error (.program (.missingPlanEntry tensor))

/-- Enqueues an operator of the graph under the name of its instance. -/
def enqueue (graph : Graph) (kernel : Nat → String → Kernel World) (execution : Execution World)
    (index id : Nat) : Except ExecutionError (Execution World) :=
  match graph.operators[index]? with
  | none => .error (.program (.noSuchOperator index))
  | some operator =>
    match execution.declared.lookup id with
    | none => .error (.program (.missingInstance (operator.describe index)))
    | some symbol =>
      execution.withOutcome
        (execution.context.enqueue ⟨kernel index symbol, operator.inputs, operator.outputs⟩)

def step (graph : Graph) (plan : Plan) (table : InstanceTable)
    (kernel : Nat → String → Kernel World) (execution : Execution World) :
    Step → Except ExecutionError (Execution World)
  | .declare id => execution.declare table id
  | .construct _ => .ok execution
  | .register tensor => execution.register plan tensor
  | .enqueue _ index id => execution.enqueue graph kernel index id
  | .flush => execution.withOutcome execution.context.flush

end Execution

namespace Graph

/-- The context after a program has run to its end in a world. The kernel of an operator is chosen
by its position and the name of its instance. -/
def execute {World : Type} (graph : Graph) (plan : Plan) (table : InstanceTable)
    (kernel : Nat → String → Kernel World) (world : World) (steps : List Step) :
    Except ExecutionError (Context World) := do
  let execution ← steps.foldlM (Execution.step graph plan table kernel) { context := { world } }
  let execution ← execution.withOutcome (execution.context.finish graph.outputs)
  return execution.context

/-- Executes a program without doing its work. -/
def replay (graph : Graph) (plan : Plan) (table : InstanceTable) (steps : List Step) :
    Except ExecutionError (Context Unit) :=
  graph.execute plan table (fun _ symbol => .idle Unit symbol) () steps

end Graph

end TensorArena
