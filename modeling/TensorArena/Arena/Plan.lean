import TensorArena.Arena.Storage
import TensorArena.Lifetime.Interval
import TensorArena.Tensor.Basic

/-!
# Memory plans

A plan gives every tensor of a graph its storage, its initial reference count and its live
interval. It is sound when tensors that are live together share no address.
-/

set_option autoImplicit false

namespace TensorArena

structure PlanEntry where
  name : String
  role : Role
  storage : Storage
  /-- The reference count the tensor is registered with. -/
  refcount : Nat
  interval : Interval
  /-- The latest step whose release handed over a part of the slot. -/
  availableAfter : Option Nat
  /-- The step after which the slot is given back, if it ever is. -/
  releasedAfter : Option Nat
deriving DecidableEq, Repr

structure Plan where
  entries : List PlanEntry
  arenaSize : Nat
  alignment : Nat
deriving DecidableEq, Repr

/-- Why a graph has no plan, or why a plan is refused. -/
inductive PlanError where
  | arenaOverflow (tensor : String) (requested required limit liveBytes : Nat) (live : List String)
  | sizeOverflow (tensor : String)
  | missingLifetime (tensor : String)
  | undeclaredTensor (tensor : String)
  | overlap (first second : String)
deriving DecidableEq, Repr

def PlanError.message : PlanError → String
  | arenaOverflow tensor requested required limit liveBytes live =>
    s!"allocating {requested} bytes for tensor '{tensor}' needs an arena of {required} bytes, " ++
      s!"limit is {limit} ({liveBytes} bytes live: " ++ ", ".intercalate live ++ ")"
  | sizeOverflow tensor => s!"byte size of tensor '{tensor}' overflows"
  | missingLifetime tensor => s!"tensor '{tensor}' was never analyzed"
  | undeclaredTensor tensor => s!"tensor '{tensor}' is not declared"
  | overlap first second =>
    s!"tensors '{first}' and '{second}' are live together in overlapping slots"

namespace PlanEntry

def extent? (entry : PlanEntry) : Option (Nat × Nat) := entry.storage.extent?

/-- Whether two entries are live together and share an address. -/
def conflicts (left right : PlanEntry) : Bool :=
  left.interval.overlaps right.interval && left.storage.overlaps right.storage

end PlanEntry

namespace Plan

/-- The entry of a name, the last one if there are several. -/
def entry? (plan : Plan) (name : String) : Option PlanEntry :=
  plan.entries.reverse.find? fun entry => entry.name == name

/-- The arena bytes taken at a position. -/
def bytesAt (plan : Plan) (position : Nat) : Nat :=
  totalSize ((plan.entries.filter fun entry => entry.interval.contains position).map
    fun entry => entry.storage.arenaSize)

/-- The largest number of arena bytes taken at one position. -/
def peakBytes (plan : Plan) : Nat :=
  let last := (plan.entries.map fun entry => entry.interval.stop).foldl max 0
  ((List.range (last + 1)).map plan.bytesAt).foldl max 0

/-- The first pair of entries in conflict. -/
def conflictIn? : List PlanEntry → Option (PlanEntry × PlanEntry)
  | [] => none
  | entry :: rest =>
    match rest.find? entry.conflicts with
    | some other => some (entry, other)
    | none => conflictIn? rest

def conflict? (plan : Plan) : Option (PlanEntry × PlanEntry) := conflictIn? plan.entries

def verify (plan : Plan) : Except PlanError Unit :=
  match plan.conflict? with
  | some (first, second) => .error (.overlap first.name second.name)
  | none => .ok ()

end Plan

end TensorArena
