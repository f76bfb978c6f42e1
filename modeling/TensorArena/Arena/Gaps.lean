/-!
# Gaps

The free parts of the arena below its end, in ascending order. Every gap remembers the latest
step whose release contributed to it.
-/

set_option autoImplicit false

namespace TensorArena

structure Gap where
  offset : Nat
  size : Nat
  freedAfter : Nat
deriving DecidableEq, Repr

def Gap.stop (gap : Gap) : Nat := gap.offset + gap.size

namespace Gaps

/-- Puts a gap in its place, instead of one at the same offset. -/
def insert (gap : Gap) (gaps : List Gap) : List Gap :=
  gaps.takeWhile (fun other => other.offset < gap.offset) ++
    gap :: gaps.dropWhile fun other => other.offset ≤ gap.offset

def erase (offset : Nat) (gaps : List Gap) : List Gap :=
  gaps.filter fun gap => gap.offset ≠ offset

/-- The gap of lowest address that can hold `size` bytes, and the gaps that are left when they are
taken from its front. -/
def firstFit? (size : Nat) (gaps : List Gap) : Option (Gap × List Gap) :=
  (gaps.find? fun gap => size ≤ gap.size).map fun gap =>
    let others := erase gap.offset gaps
    if size < gap.size then
      (gap, insert ⟨gap.offset + size, gap.size - size, gap.freedAfter⟩ others)
    else (gap, others)

/-- The gap that ends at the end of the arena, and the other gaps. -/
def lastGap? (arenaEnd : Nat) (gaps : List Gap) : Option (Gap × List Gap) :=
  match gaps.getLast? with
  | some gap => if gap.stop = arenaEnd then some (gap, erase gap.offset gaps) else none
  | none => none

/-- Joins a gap with the nearest one below it, if they touch. -/
def joinBelow (gap : Gap) (gaps : List Gap) : Gap × List Gap :=
  match (gaps.filter fun other => other.offset < gap.offset).getLast? with
  | some below =>
    if below.stop = gap.offset then
      (⟨below.offset, below.size + gap.size, max gap.freedAfter below.freedAfter⟩,
        erase below.offset gaps)
    else (gap, gaps)
  | none => (gap, gaps)

/-- Joins a gap with the one that begins where it ends. -/
def joinAbove (gap : Gap) (gaps : List Gap) : Gap × List Gap :=
  match gaps.find? fun other => other.offset == gap.stop with
  | some above =>
    (⟨gap.offset, gap.size + above.size, max gap.freedAfter above.freedAfter⟩,
      erase above.offset gaps)
  | none => (gap, gaps)

/-- Gives a slot back. It becomes one gap with those it touches. -/
def release (gap : Gap) (gaps : List Gap) : List Gap :=
  if gap.size = 0 then gaps
  else
    let (gap, gaps) := joinBelow gap gaps
    let (gap, gaps) := joinAbove gap gaps
    insert gap gaps

end Gaps

end TensorArena
