import TensorArena.Arena.Storage
import TensorArena.Text.Order
import TensorArena.Text.Quoted

/-!
# Evaluation contexts

A context holds the registered tensors with their reference counts and a queue of evaluations. It
runs the kernels of the queue in order and releases a tensor when its count drops to zero. What
kernels do to the world is their own affair; the context only sequences them.
-/

set_option autoImplicit false

namespace TensorArena

/-- A registered tensor as a kernel sees it. -/
structure Handle where
  name : String
  storage : Storage
deriving DecidableEq, Repr

inductive ContextError where
  | duplicateRegistration (name : String)
  | addressConflict (name other : String)
  | unknownTensor (operator name : String)
  | notRegistered (name : String)
  | refcountUnderflow (name : String)
  | leaked (names : List String)
  | terminated
  | failed (operator message : String)
deriving DecidableEq, Repr

def ContextError.message : ContextError → String
  | duplicateRegistration name => s!"tensor '{name}' is already registered"
  | addressConflict name other =>
    s!"tensor '{name}' overlaps the storage of live tensor '{other}'"
  | unknownTensor operator name =>
    s!"operator '{operator}' references unregistered tensor '{name}'"
  | notRegistered name => s!"tensor '{name}' is not registered"
  | refcountUnderflow name => s!"refcount of tensor '{name}' dropped below zero"
  | leaked names => "tensors still held at program exit: " ++ ", ".intercalate names
  | terminated => "context has already terminated"
  | failed operator message => s!"operator '{operator}' failed: {message}"

/-- A unit of computation. It sees its inputs and outputs and changes the world, and may fail. -/
structure Kernel (World : Type) where
  name : String
  execute : List Handle → List Handle → World → Except ContextError Unit × World

/-- The kernel that does nothing. -/
def Kernel.idle (World : Type) (name : String) : Kernel World where
  name
  execute _ _ world := (.ok (), world)

/-- A queued evaluation: a kernel and the names of its tensors. -/
structure Evaluation (World : Type) where
  kernel : Kernel World
  inputs : List String
  outputs : List String

inductive Phase where
  | empty
  | populated
  | flushed
  | terminated
deriving DecidableEq, Repr

def Phase.name : Phase → String
  | .empty => "empty"
  | .populated => "populated"
  | .flushed => "flushed"
  | .terminated => "terminated"

/-- The name used in descriptions. -/
def Phase.title : Phase → String
  | .empty => "Empty"
  | .populated => "Populated"
  | .flushed => "Flushed"
  | .terminated => "Terminated"

inductive Event where
  | registered (name : String) (refcount : Nat)
  | enqueued (operator : String)
  | executed (operator : String)
  | released (name : String)
  | flushed (executed : Nat)
deriving DecidableEq, Repr

structure Registration where
  name : String
  storage : Storage
  refcount : Nat
deriving DecidableEq, Repr

def Registration.handle (registration : Registration) : Handle :=
  ⟨registration.name, registration.storage⟩

structure Context (World : Type) where
  tensors : List Registration := []
  queue : List (Evaluation World) := []
  phase : Phase := .empty
  events : List Event := []
  world : World

/-- What a call to a context comes to: its result and the context after it, which a call that
fails may have changed as well. -/
abbrev Outcome (World : Type) : Type := Except ContextError Unit × Context World

namespace Context

variable {World : Type}

def registration? (context : Context World) (name : String) : Option Registration :=
  context.tensors.find? fun registration => registration.name == name

def isRegistered (context : Context World) (name : String) : Bool :=
  (context.registration? name).isSome

def refcount? (context : Context World) (name : String) : Option Nat :=
  (context.registration? name).map Registration.refcount

/-- The names of the registered tensors, sorted. -/
def live (context : Context World) : List String :=
  sortNames (context.tensors.map Registration.name)

/-- A line that shows the state of a context. -/
def describe (context : Context World) : String :=
  "EvalContext \x7b state: " ++ context.phase.title ++ ", live: " ++
    Quoted.quoteAll context.live ++ s!", pending: {context.queue.length} " ++ "\x7d"

def lookup (context : Context World) (name : String) : Except ContextError Handle :=
  match context.registration? name with
  | some registration => .ok registration.handle
  | none => .error (.notRegistered name)

def note (context : Context World) (event : Event) : Context World :=
  { context with events := context.events ++ [event] }

/-- The first name, in order, of a registered tensor that shares an address with a storage. -/
def conflict? (context : Context World) (storage : Storage) : Option String :=
  (sortNames ((context.tensors.filter fun registration =>
    registration.storage.overlaps storage).map Registration.name)).head?

def register (context : Context World) (name : String) (storage : Storage) (refcount : Nat) :
    Outcome World :=
  if context.phase = .terminated then (.error .terminated, context)
  else if context.isRegistered name then (.error (.duplicateRegistration name), context)
  else
    match context.conflict? storage with
    | some other => (.error (.addressConflict name other), context)
    | none =>
      (.ok (), { context with
        tensors := context.tensors ++ [⟨name, storage, refcount⟩]
        phase := .populated
        events := context.events ++ [.registered name refcount] })

def enqueue (context : Context World) (evaluation : Evaluation World) : Outcome World :=
  if context.phase = .terminated then (.error .terminated, context)
  else
    match (evaluation.inputs ++ evaluation.outputs).find? fun name =>
      !context.isRegistered name with
    | some name => (.error (.unknownTensor evaluation.kernel.name name), context)
    | none =>
      (.ok (), { context with
        queue := context.queue ++ [evaluation]
        phase := .populated
        events := context.events ++ [.enqueued evaluation.kernel.name] })

/-- Removes a registered tensor. -/
def release (context : Context World) (name : String) : Context World :=
  if context.isRegistered name then
    { context with
      tensors := context.tensors.filter fun registration => registration.name ≠ name
      events := context.events ++ [.released name] }
  else context

def setRefcount (context : Context World) (name : String) (refcount : Nat) : Context World :=
  { context with
    tensors := context.tensors.map fun registration =>
      if registration.name = name then { registration with refcount } else registration }

/-- Takes one unit from a tensor's count, and releases the tensor if it was the last. -/
def decrement (context : Context World) (name : String) : Outcome World :=
  match context.refcount? name with
  | none => (.error (.notRegistered name), context)
  | some 0 => (.error (.refcountUnderflow name), context)
  | some 1 => (.ok (), context.release name)
  | some (count + 2) => (.ok (), context.setRefcount name (count + 1))

/-- Takes one unit from each tensor in turn, up to the first failure. -/
def decrementAll (context : Context World) : List String → Outcome World
  | [] => (.ok (), context)
  | name :: rest =>
    match context.decrement name with
    | (.ok (), context) => context.decrementAll rest
    | (.error error, context) => (.error error, context)

/-- Releases those of the tensors whose count is zero. -/
def releaseUnread (context : Context World) (names : List String) : Context World :=
  names.foldl (fun context name =>
    if context.refcount? name = some 0 then context.release name else context) context

def resolve (context : Context World) (names : List String) :
    Except ContextError (List Handle) :=
  names.mapM context.lookup

/-- The names of a list, each at its first occurrence. -/
def distinct (seen : List String) : List String → List String
  | [] => []
  | name :: rest =>
    if seen.contains name then distinct seen rest else name :: distinct (name :: seen) rest

/-- Runs an evaluation and settles the counts of its tensors. -/
def evaluate (context : Context World) (evaluation : Evaluation World) : Outcome World :=
  match context.resolve evaluation.inputs, context.resolve evaluation.outputs with
  | .error error, _ => (.error error, context)
  | .ok _, .error error => (.error error, context)
  | .ok inputs, .ok outputs =>
    match evaluation.kernel.execute inputs outputs context.world with
    | (.error error, world) => (.error error, { context with world })
    | (.ok (), world) =>
      let context := { context with world }.note (.executed evaluation.kernel.name)
      match context.decrementAll (distinct [] evaluation.inputs) with
      | (.error error, context) => (.error error, context)
      | (.ok (), context) => (.ok (), context.releaseUnread evaluation.outputs)

/-- Runs the evaluations in order; the queue keeps those behind a failing one. -/
def drain (context : Context World) (executed : Nat) :
    List (Evaluation World) → Outcome World
  | [] => (.ok (), { context with phase := .flushed }.note (.flushed executed))
  | evaluation :: rest =>
    match { context with queue := rest }.evaluate evaluation with
    | (.error error, context) => (.error error, context)
    | (.ok (), context) => context.drain (executed + 1) rest

/-- Runs the queued evaluations. -/
def flush (context : Context World) : Outcome World :=
  if context.phase = .terminated then (.error .terminated, context)
  else context.drain 0 context.queue

/-- Runs what is queued, gives up the outside's hold on the outputs and checks that nothing is
left. -/
def finish (context : Context World) (outputs : List String) : Outcome World :=
  match context.flush with
  | (.error error, context) => (.error error, context)
  | (.ok (), context) =>
    match context.decrementAll outputs with
    | (.error error, context) => (.error error, context)
    | (.ok (), context) =>
      let context := { context with phase := .terminated }
      if context.tensors.isEmpty then (.ok (), context)
      else (.error (.leaked context.live), context)

end Context

end TensorArena
