import TensorArena.Arena.Gaps
import TensorArena.Arena.Plan
import TensorArena.Lifetime.Analysis
import TensorArena.Text.Order

/-!
# Planning the arena

The planner walks the execution once. Inputs and constants are placed at the entry; then every
operator's outputs are placed before those of its inputs that nobody reads any more are released.
A slot is taken from the first gap that fits, otherwise from the end of the arena.
-/

set_option autoImplicit false

namespace TensorArena

structure ArenaOptions where
  arenaLimit : Option Nat := none
  alignment : Nat := 4
deriving DecidableEq, Repr

namespace ArenaOptions

/-- The alignment in use; zero counts as one. -/
def grain (options : ArenaOptions) : Nat := max options.alignment 1

/-- A size rounded up to the alignment, by clearing the bits below it. For a power of two that is
the least multiple. -/
def alignUp? (options : ArenaOptions) (size : Nat) : Option Nat :=
  (size? (size + (options.grain - 1))).map fun padded =>
    padded - (padded &&& (options.grain - 1))

end ArenaOptions

/-- A tensor that holds a slot of the arena. -/
structure Holding where
  name : String
  size : Nat
deriving DecidableEq, Repr

/-- The state of the planner. Entries and reader counts stand in the order of the tensors. -/
structure PlannerState where
  gaps : List Gap
  arenaEnd : Nat
  held : List Holding
  entries : List (Option PlanEntry)
  remaining : List Nat
deriving Repr

namespace PlannerState

/-- The offset of a slot for a tensor, and the step that last gave back a part of it. -/
def allocate (options : ArenaOptions) (tensor : String) (size : Nat) (state : PlannerState) :
    Except PlanError ((Nat × Option Nat) × PlannerState) :=
  match Gaps.firstFit? size state.gaps with
  | some (gap, gaps) =>
    .ok ((gap.offset, some gap.freedAfter),
      { state with gaps, held := state.held ++ [⟨tensor, size⟩] })
  | none =>
    let (offset, freedAfter, gaps) :=
      match Gaps.lastGap? state.arenaEnd state.gaps with
      | some (gap, gaps) => (gap.offset, some gap.freedAfter, gaps)
      | none => (state.arenaEnd, none, state.gaps)
    match size? (offset + size) with
    | none => .error (.sizeOverflow tensor)
    | some required =>
      let grown := .ok ((offset, freedAfter),
        { state with
          gaps
          arenaEnd := max state.arenaEnd required
          held := state.held ++ [⟨tensor, size⟩] })
      match options.arenaLimit with
      | none => grown
      | some limit =>
        if limit < required then
          .error (.arenaOverflow tensor size required limit
            (totalSize (state.held.map Holding.size)) (sortNames (state.held.map Holding.name)))
        else grown

/-- Gives the tensor at a position its storage. -/
def place (lifetimes : Lifetimes) (options : ArenaOptions) (position : Nat) (tensor : Tensor)
    (state : PlannerState) : Except PlanError PlannerState := do
  let some lifetime := lifetimes.get? tensor.name | .error (.missingLifetime tensor.name)
  let (storage, availableAfter, state) ←
    if lifetime.role = .constant then .ok (Storage.rom, none, state)
    else
      match tensor.byteLength?.bind options.alignUp? with
      | none => .error (.sizeOverflow tensor.name)
      | some size => do
        let ((offset, availableAfter), state) ← state.allocate options tensor.name size
        .ok (Storage.arena offset size, availableAfter, state)
  return { state with
    entries := state.entries.set position <| some {
      name := tensor.name
      role := lifetime.role
      storage
      refcount := lifetime.refcount
      interval := lifetime.interval
      availableAfter
      releasedAfter := none } }

end PlannerState

namespace Graph

def initialState (graph : Graph) (lifetimes : Lifetimes) : Except PlanError PlannerState := do
  let remaining ← graph.tensors.mapM fun tensor =>
    match lifetimes.get? tensor.name with
    | some lifetime => .ok lifetime.consumers.length
    | none => .error (.missingLifetime tensor.name)
  return { gaps := []
           arenaEnd := 0
           held := []
           entries := graph.tensors.map fun _ => none
           remaining }

/-- The position of a tensor, the last one if several have the name. -/
def position? (graph : Graph) (name : String) : Option Nat :=
  (graph.tensors.zipIdx.reverse.find? fun tensor => tensor.1.name == name).map Prod.snd

/-- Places the tensors that are there before the first step. -/
def placeEntry (lifetimes : Lifetimes) (options : ArenaOptions) :
    Nat → List Tensor → PlannerState → Except PlanError PlannerState
  | _, [], state => .ok state
  | position, tensor :: rest, state => do
    let some lifetime := lifetimes.get? tensor.name | .error (.missingLifetime tensor.name)
    let state ←
      if lifetime.role = .intermediate then .ok state
      else state.place lifetimes options position tensor
    placeEntry lifetimes options (position + 1) rest state

/-- Places a tensor by name. -/
def placeNamed (graph : Graph) (lifetimes : Lifetimes) (options : ArenaOptions)
    (state : PlannerState) (name : String) : Except PlanError PlannerState := do
  let some position := graph.position? name | .error (.undeclaredTensor name)
  let some tensor := graph.tensors[position]? | .error (.undeclaredTensor name)
  state.place lifetimes options position tensor

end Graph

namespace PlannerState

/-- Gives back the slot of the tensor at a position. -/
def release (position step : Nat) (state : PlannerState) : PlannerState :=
  match state.entries[position]? with
  | some (some entry) =>
    let entries := state.entries.set position (some { entry with releasedAfter := some step })
    match entry.storage with
    | .rom => { state with entries }
    | .arena offset size =>
      { state with
        entries
        held := state.held.filter fun holding => holding.name ≠ entry.name
        gaps := Gaps.release ⟨offset, size, step⟩ state.gaps }
  | _ => state

/-- Releases the tensor at a position unless a reader of it remains or it is an output. -/
def releaseUnread (graph : Graph) (step position : Nat) (name : String) (state : PlannerState) :
    PlannerState :=
  if state.remaining[position]? = some 0 && !graph.isOutput name then state.release position step
  else state

/-- Counts one reader of the tensor at a position as done. -/
def countRead (position : Nat) (state : PlannerState) : PlannerState :=
  { state with remaining := state.remaining.modify position (· - 1) }

/-- Counts a step as a reader of each of its inputs, once for each tensor. -/
def readInputs (graph : Graph) (step : Nat) :
    List Nat → List String → PlannerState → Except PlanError PlannerState
  | _, [], state => .ok state
  | seen, name :: rest, state =>
    match graph.position? name with
    | none => .error (.undeclaredTensor name)
    | some position =>
      if seen.contains position then readInputs graph step seen rest state
      else
        readInputs graph step (position :: seen) rest
          ((state.countRead position).releaseUnread graph step position name)

/-- Releases the outputs of a step that nobody reads. -/
def dropUnread (graph : Graph) (step : Nat) :
    List String → PlannerState → Except PlanError PlannerState
  | [], state => .ok state
  | name :: rest, state =>
    match graph.position? name with
    | none => .error (.undeclaredTensor name)
    | some position => dropUnread graph step rest (state.releaseUnread graph step position name)

end PlannerState

namespace Graph

def planStep (graph : Graph) (lifetimes : Lifetimes) (options : ArenaOptions) (step : Nat)
    (operator : Operator) (state : PlannerState) : Except PlanError PlannerState := do
  let state ← operator.outputs.foldlM (graph.placeNamed lifetimes options) state
  let state ← state.readInputs graph step [] operator.inputs
  state.dropUnread graph step operator.outputs

def planSteps (graph : Graph) (lifetimes : Lifetimes) (options : ArenaOptions) :
    Nat → List Operator → PlannerState → Except PlanError PlannerState
  | _, [], state => .ok state
  | step, operator :: rest, state => do
    let state ← graph.planStep lifetimes options step operator state
    graph.planSteps lifetimes options (step + 1) rest state

/-- The entries of a finished walk; every tensor must have been placed. -/
def collectEntries : List Tensor → List (Option PlanEntry) → Except PlanError (List PlanEntry)
  | tensor :: tensors, entry :: entries =>
    match entry with
    | none => .error (.missingLifetime tensor.name)
    | some entry => do return entry :: (← collectEntries tensors entries)
  | _, _ => .ok []

/-- Gives every tensor its storage, for lifetimes that may stem from another graph. -/
def plan (graph : Graph) (lifetimes : Lifetimes) (options : ArenaOptions) :
    Except PlanError Plan := do
  let state ← graph.initialState lifetimes
  let state ← placeEntry lifetimes options 0 graph.tensors state
  let state ← graph.planSteps lifetimes options 0 graph.operators state
  return { entries := ← collectEntries graph.tensors state.entries
           arenaSize := state.arenaEnd
           alignment := options.grain }

end Graph

end TensorArena
