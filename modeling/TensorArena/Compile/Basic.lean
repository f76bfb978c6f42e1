import TensorArena.Json.Writer
import TensorArena.Program.Execution
import TensorArena.Program.Source

/-!
# Compilation

A graph is checked, planned and assembled, the program is replayed, and only then is its source
written.
-/

set_option autoImplicit false

namespace TensorArena

/-- Why a compilation fails, by its stage. -/
inductive CompileError where
  | settings (error : SettingsError)
  | graph (error : GraphError)
  | lifetime (error : LifetimeError)
  | plan (error : PlanError)
  | sharing (error : InstanceError)
  | program (error : ProgramError)
  | replay (error : ContextError)
deriving DecidableEq, Repr

namespace CompileError

/-- The message of the error that the stage met. -/
def cause : CompileError → String
  | settings error => error.message
  | graph error => error.message
  | lifetime error => error.message
  | plan error => error.message
  | sharing error => error.message
  | program error => error.message
  | replay error => error.message

def message (error : CompileError) : String :=
  let context := match error with
    | settings _ => "invalid configuration: "
    | graph _ => "graph validation failed: "
    | lifetime _ => "liveness analysis failed: "
    | plan _ => "memory planning failed: "
    | sharing _ => "operator deduplication failed: "
    | program _ => "emission failed: "
    | replay _ => "plan replay failed: "
  context ++ error.cause

def stage : CompileError → String
  | settings _ => "config"
  | graph _ => "validate"
  | lifetime _ => "liveness"
  | plan _ => "plan"
  | sharing _ => "dedup"
  | program _ => "assemble"
  | replay _ => "verify"

end CompileError

def ExecutionError.toCompileError : ExecutionError → CompileError
  | program error => .program error
  | context error => .replay error

/-- Everything that a compilation brings forth. -/
structure Model where
  name : String
  fingerprint : UInt64
  graph : Graph
  lifetimes : Lifetimes
  plan : Plan
  table : InstanceTable
  steps : List Step
  source : String

def Graph.compile (graph : Graph) (catalog : Catalog) (settings : Settings) :
    Except CompileError Model := do
  settings.validate.mapError .settings
  graph.validate.mapError .graph
  let lifetimes ← graph.lifetimes.mapError .lifetime
  let plan ← (graph.plan lifetimes settings.arenaOptions).mapError .plan
  plan.verify.mapError .plan
  let table ← (graph.shareInstances catalog).mapError .sharing
  let steps ← (graph.assemble plan table settings.batching).mapError .program
  let _ ← (graph.replay plan table steps).mapError ExecutionError.toCompileError
  let unit : SourceUnit :=
    { graph, plan, table, catalog, settings, fingerprint := graph.fingerprint }
  return {
    name := unit.modelName
    fingerprint := unit.fingerprint
    graph, lifetimes, plan, table, steps
    source := ← (unit.render steps).mapError .program }

end TensorArena
