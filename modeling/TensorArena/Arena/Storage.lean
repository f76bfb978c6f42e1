/-!
# Storage

A tensor lives in a slot of the arena or in read-only storage outside it.
-/

set_option autoImplicit false

namespace TensorArena

inductive Storage where
  /-- The addresses from `offset` up to `offset + size`, the last not included. -/
  | arena (offset size : Nat)
  | rom
deriving DecidableEq, Repr

namespace Storage

def offset? : Storage → Option Nat
  | arena offset _ => some offset
  | rom => none

/-- The slot's first address and the one past its last. -/
def extent? : Storage → Option (Nat × Nat)
  | arena offset size => some (offset, offset + size)
  | rom => none

/-- The bytes a storage takes in the arena. -/
def arenaSize : Storage → Nat
  | arena _ size => size
  | rom => 0

/-- Whether two storages share an address. Empty slots share none. -/
def overlaps : Storage → Storage → Bool
  | arena left leftSize, arena right rightSize =>
    0 < leftSize && 0 < rightSize && left < right + rightSize && right < left + leftSize
  | _, _ => false

end Storage

end TensorArena
