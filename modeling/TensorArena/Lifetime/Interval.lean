/-!
# Live intervals

Positions count the moments of an execution: position zero is the entry, and the operator of step
`i` runs at position `i + 1`.
-/

set_option autoImplicit false

namespace TensorArena

/-- The positions from `start` to `stop`, both included. -/
structure Interval where
  start : Nat
  stop : Nat
deriving DecidableEq, Repr

namespace Interval

def contains (interval : Interval) (position : Nat) : Bool :=
  interval.start ≤ position && position ≤ interval.stop

/-- Two intervals overlap also when one begins where the other ends: an operator's outputs are
placed before its inputs are released. -/
def overlaps (left right : Interval) : Bool :=
  left.start ≤ right.stop && right.start ≤ left.stop

end Interval

end TensorArena
