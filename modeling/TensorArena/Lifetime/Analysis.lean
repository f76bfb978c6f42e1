import TensorArena.Graph.Validation
import TensorArena.Lifetime.Interval

/-!
# Lifetimes of tensors

One walk over the operators finds who writes each tensor, a second one who reads it. The lifetime
of a tensor reaches from its writer to its last reader, or past the last operator if it is an
output of the graph.
-/

set_option autoImplicit false

namespace TensorArena

/-- Why the lifetimes of a graph's tensors are not defined. -/
inductive LifetimeError where
  | graph (error : GraphError)
  | unusedTensor (name : String) (role : Role)
  | orderViolation (tensor producer consumer : String)
  | multipleProducers (tensor first second : String)
  | producedInput (tensor : String) (role : Role) (operator : String)
  | unproduced (tensor : String)
deriving DecidableEq, Repr

def LifetimeError.message : LifetimeError → String
  | graph error => error.message
  | unusedTensor name role => s!"{role.title} tensor '{name}' is never consumed"
  | orderViolation tensor producer consumer =>
    s!"tensor '{tensor}' is consumed by {consumer} before its producer {producer}"
  | multipleProducers tensor first second =>
    s!"tensor '{tensor}' is produced by both {first} and {second}"
  | producedInput tensor role operator =>
    s!"{role.title} tensor '{tensor}' is written by operator {operator}"
  | unproduced tensor => s!"tensor '{tensor}' has no producer"

/-- When a tensor is written and read, and for how long it must be kept. -/
structure Lifetime where
  name : String
  role : Role
  /-- The step that writes the tensor, if it is an intermediate one. -/
  producer : Option Nat
  /-- The steps that read the tensor, ascending and without repetition. -/
  consumers : List Nat
  isOutput : Bool
  interval : Interval
  /-- One unit for every reading step, and one for the outside if the tensor is an output. -/
  refcount : Nat
deriving DecidableEq, Repr

/-- The lifetimes of all tensors in their order of declaration, and the number of steps. -/
structure Lifetimes where
  tensors : List Lifetime
  steps : Nat
deriving Repr

namespace Lifetimes

def get? (lifetimes : Lifetimes) (name : String) : Option Lifetime :=
  lifetimes.tensors.find? fun lifetime => lifetime.name == name

/-- The position just past the last operator. -/
def exit (lifetimes : Lifetimes) : Nat := lifetimes.steps + 1

end Lifetimes

/-- The tensors written so far with the steps that wrote them. -/
abbrev Producers : Type := List (String × Nat)

namespace Producers

def step? (producers : Producers) (name : String) : Option Nat := producers.lookup name

end Producers

namespace Graph

/-- Names the operator of a step in messages. -/
def describeStep (graph : Graph) (step : Nat) : String :=
  (graph.operators[step]?.map fun operator => operator.describe step).getD ""

/-- Notes that a step writes a tensor, which must be an intermediate one not yet written. -/
def addProducer (graph : Graph) (step : Nat) (producers : Producers) (name : String) :
    Except LifetimeError Producers :=
  match graph.role? name with
  | none => .error (.graph (.unknownTensor (graph.describeStep step) name))
  | some .intermediate =>
    match producers.step? name with
    | some first =>
      .error (.multipleProducers name (graph.describeStep first) (graph.describeStep step))
    | none => .ok ((name, step) :: producers)
  | some role => .error (.producedInput name role (graph.describeStep step))

def producersFrom (graph : Graph) (step : Nat) (producers : Producers) :
    List Operator → Except LifetimeError Producers
  | [] => .ok producers
  | operator :: rest => do
    let producers ← operator.outputs.foldlM (graph.addProducer step) producers
    graph.producersFrom (step + 1) producers rest

/-- Checks that a tensor which a step reads has been written before. -/
def checkRead (graph : Graph) (producers : Producers) (step : Nat) (name : String) :
    Except LifetimeError Unit :=
  match graph.role? name with
  | none => .error (.graph (.unknownTensor (graph.describeStep step) name))
  | some .intermediate =>
    match producers.step? name with
    | none => .error (.unproduced name)
    | some producer =>
      if producer < step then .ok ()
      else .error (.orderViolation name (graph.describeStep producer) (graph.describeStep step))
  | some _ => .ok ()

def checkReadsFrom (graph : Graph) (producers : Producers) (step : Nat) :
    List Operator → Except LifetimeError Unit
  | [] => .ok ()
  | operator :: rest => do
    operator.inputs.forM (graph.checkRead producers step)
    graph.checkReadsFrom producers (step + 1) rest

/-- The steps that read a tensor, counted from `step`. -/
def consumersFrom (name : String) (step : Nat) : List Operator → List Nat
  | [] => []
  | operator :: rest =>
    if operator.inputs.contains name then step :: consumersFrom name (step + 1) rest
    else consumersFrom name (step + 1) rest

/-- The lifetime of a declared tensor. A result that nobody reads is tolerated, an input or a
constant that nobody reads is not. -/
def lifetime (graph : Graph) (producers : Producers) (tensor : Tensor) :
    Except LifetimeError Lifetime :=
  let role := (graph.role? tensor.name).getD .intermediate
  let isOutput := graph.isOutput tensor.name
  let producer := producers.step? tensor.name
  let consumers := consumersFrom tensor.name 0 graph.operators
  if role = .intermediate && producer.isNone then .error (.unproduced tensor.name)
  else if consumers.isEmpty && !isOutput && role ≠ .intermediate then
    .error (.unusedTensor tensor.name role)
  else
    let start := (producer.map (· + 1)).getD 0
    let stop :=
      if isOutput then graph.operators.length + 1
      else (consumers.getLast?.map (· + 1)).getD start
    .ok {
      name := tensor.name
      role
      producer
      consumers
      isOutput
      interval := ⟨start, stop⟩
      refcount := consumers.length + if isOutput then 1 else 0 }

/-- The lifetimes of all tensors over the whole execution. -/
def lifetimes (graph : Graph) : Except LifetimeError Lifetimes := do
  graph.checkTable.mapError .graph
  let producers ← graph.producersFrom 0 [] graph.operators
  graph.checkReadsFrom producers 0 graph.operators
  return { tensors := ← graph.tensors.mapM (graph.lifetime producers)
           steps := graph.operators.length }

end Graph

end TensorArena
