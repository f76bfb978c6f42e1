import TensorArena.Proofs.Arena.Overflow

/-!
# Sums

The length of a tensor and the end of a new slot are checked. All other addresses and sizes are
added up without a check when the planner looks for a gap, gives a slot back or reports an overflow.
None of these sums exceeds the end of the arena, which is an address.
-/

set_option autoImplicit false

namespace TensorArena

/-- The sums on the way when sizes are added up from the left. -/
def runningTotals (start : Nat) : List Nat → List Nat
  | [] => []
  | size :: sizes => (start + size) :: runningTotals (start + size) sizes

theorem le_of_mem_runningTotals {start sum : Nat} {sizes : List Nat}
    (member : sum ∈ runningTotals start sizes) : sum ≤ start + totalSize sizes := by
  induction sizes generalizing start with
  | nil => cases member
  | cons size rest ih =>
    rw [totalSize, ← Nat.add_assoc]
    rcases List.mem_cons.mp member with rfl | later
    · exact Nat.le_add_right _ _
    · exact ih later

namespace Gaps

/-! ### Gaps -/

/-- What is added up when a slot is taken from the first gap that fits: the start of what is left of
the gap. -/
def firstFitSums (size : Nat) (gaps : List Gap) : List Nat :=
  match gaps.find? fun gap => size ≤ gap.size with
  | some gap => if size < gap.size then [gap.offset + size] else []
  | none => []

/-- What is added up when the last gap is compared with the end of the arena. -/
def lastGapSums (gaps : List Gap) : List Nat :=
  match gaps.getLast? with
  | some gap => [gap.offset + gap.size]
  | none => []

/-- What is added up when a gap below may touch. -/
def belowSums (gap : Gap) (gaps : List Gap) : List Nat :=
  match (gaps.filter fun other => other.offset < gap.offset).getLast? with
  | some below => [below.offset + below.size]
  | none => []

/-- What is added up when a gap above touches. -/
def aboveSums (gap : Gap) (gaps : List Gap) : List Nat :=
  match gaps.find? fun other => other.offset == gap.stop with
  | some above => [gap.stop + above.size]
  | none => []

def releaseSums (gap : Gap) (gaps : List Gap) : List Nat :=
  if gap.size = 0 then []
  else
    let joined := joinBelow gap gaps
    (gap.offset + gap.size) :: (belowSums gap gaps ++ aboveSums joined.1 joined.2)

theorem mem_of_mem_joinBelow {gap other : Gap} {gaps : List Gap}
    (kept : other ∈ (joinBelow gap gaps).2) : other ∈ gaps := by
  unfold joinBelow at kept
  split at kept
  · split at kept
    · exact (List.mem_filter.mp kept).1
    · exact kept
  · exact kept

variable {gaps : List Gap} {bound sum : Nat} (inside : ∀ gap ∈ gaps, gap.stop ≤ bound)

include inside

theorem firstFitSums_le {size : Nat} (member : sum ∈ firstFitSums size gaps) : sum ≤ bound := by
  unfold firstFitSums at member
  split at member
  · rename_i gap found
    split at member
    · rename_i smaller
      have within := inside gap (List.mem_of_find?_eq_some found)
      rw [List.mem_singleton.mp member]
      unfold Gap.stop at within
      omega
    · cases member
  · cases member

theorem lastGapSums_le (member : sum ∈ lastGapSums gaps) : sum ≤ bound := by
  unfold lastGapSums at member
  split at member
  · rename_i gap isLast
    rw [List.mem_singleton.mp member]
    exact inside gap (List.mem_of_getLast? isLast)
  · cases member

theorem belowSums_le {gap : Gap} (member : sum ∈ belowSums gap gaps) : sum ≤ bound := by
  unfold belowSums at member
  split at member
  · rename_i below isLast
    rw [List.mem_singleton.mp member]
    exact inside below (List.mem_filter.mp (List.mem_of_getLast? isLast)).1
  · cases member

theorem aboveSums_le {gap : Gap} (member : sum ∈ aboveSums gap gaps) : sum ≤ bound := by
  unfold aboveSums at member
  split at member
  · rename_i above found
    have touching : above.offset = gap.stop := by simpa using List.find?_some found
    rw [List.mem_singleton.mp member, ← touching]
    exact inside above (List.mem_of_find?_eq_some found)
  · cases member

theorem releaseSums_le {gap : Gap} (within : gap.stop ≤ bound)
    (member : sum ∈ releaseSums gap gaps) : sum ≤ bound := by
  have others : ∀ other ∈ (joinBelow gap gaps).2, other.stop ≤ bound :=
    fun other kept => inside other (mem_of_mem_joinBelow kept)
  unfold releaseSums at member
  split at member
  · cases member
  · rcases List.mem_cons.mp member with rfl | more
    · exact within
    · rcases List.mem_append.mp more with below | above
      · exact belowSums_le inside below
      · exact aboveSums_le others above

end Gaps

namespace PlannerState

/-! ### Moves -/

/-- What is added up for a slot. The sizes of the holdings are for the report if it is refused. -/
def allocateSums (size : Nat) (state : PlannerState) : List Nat :=
  match Gaps.firstFit? size state.gaps with
  | some _ => Gaps.firstFitSums size state.gaps
  | none => Gaps.lastGapSums state.gaps ++ runningTotals 0 (state.held.map Holding.size)

def placeSums (lifetimes : Lifetimes) (options : ArenaOptions) (tensor : Tensor)
    (state : PlannerState) : List Nat :=
  match lifetimes.get? tensor.name, tensor.byteLength?.bind options.alignUp? with
  | some lifetime, some size =>
    if lifetime.role = .constant then [] else state.allocateSums size
  | _, _ => []

def releaseSums (position step : Nat) (state : PlannerState) : List Nat :=
  match state.entries[position]? with
  | some (some entry) =>
    match entry.storage with
    | .rom => []
    | .arena offset size => Gaps.releaseSums ⟨offset, size, step⟩ state.gaps
  | _ => []

def releaseUnreadSums (graph : Graph) (step position : Nat) (name : String)
    (state : PlannerState) : List Nat :=
  if state.remaining[position]? = some 0 && !graph.isOutput name then
    state.releaseSums position step
  else []

/-- All sums that the planner forms without a check in a move. -/
def sums (graph : Graph) (lifetimes : Lifetimes) (options : ArenaOptions) (state : PlannerState) :
    Move → List Nat
  | .place _ tensor => state.placeSums lifetimes options tensor
  | .read step position name =>
    (state.countRead position).releaseUnreadSums graph step position name
  | .drop step position name => state.releaseUnreadSums graph step position name

section Bounds

variable {graph : Graph} {lifetimes : Lifetimes} {options : ArenaOptions} {state : PlannerState}
  {now sum : Nat}

/-- The sizes of the holdings add up to no more than the arena. -/
theorem Arranged.totalSize_held_le (arranged : state.Arranged now) (accounts : state.Accounts) :
    totalSize (state.held.map Holding.size) ≤ state.arenaEnd := by
  rw [accounts.totalSize_eq, ← arranged.tiled]
  exact Nat.le_add_right _ _

theorem Arranged.allocateSums_le (arranged : state.Arranged now) (accounts : state.Accounts)
    {size : Nat} (member : sum ∈ state.allocateSums size) : sum ≤ state.arenaEnd := by
  unfold allocateSums at member
  split at member
  · exact Gaps.firstFitSums_le arranged.gaps_inside member
  · rcases List.mem_append.mp member with last | holding
    · exact Gaps.lastGapSums_le arranged.gaps_inside last
    · have total := le_of_mem_runningTotals holding
      rw [Nat.zero_add] at total
      exact Nat.le_trans total (arranged.totalSize_held_le accounts)

theorem Arranged.placeSums_le (arranged : state.Arranged now) (accounts : state.Accounts)
    {tensor : Tensor} (member : sum ∈ state.placeSums lifetimes options tensor) :
    sum ≤ state.arenaEnd := by
  unfold placeSums at member
  split at member
  · split at member
    · cases member
    · exact arranged.allocateSums_le accounts member
  · cases member

theorem Arranged.releaseSums_le (arranged : state.Arranged now) {position step : Nat}
    (member : sum ∈ state.releaseSums position step) : sum ≤ state.arenaEnd := by
  unfold releaseSums at member
  split at member
  · rename_i entry held
    split at member
    · cases member
    · rename_i offset size stored
      have within : Gap.stop ⟨offset, size, step⟩ ≤ state.arenaEnd := by
        have inside := arranged.inside position entry held
        rw [stored] at inside
        exact inside
      exact Gaps.releaseSums_le arranged.gaps_inside within member
  · cases member

theorem Arranged.releaseUnreadSums_le (arranged : state.Arranged now) {step position : Nat}
    {name : String} (member : sum ∈ state.releaseUnreadSums graph step position name) :
    sum ≤ state.arenaEnd := by
  unfold releaseUnreadSums at member
  split at member
  · exact arranged.releaseSums_le member
  · cases member

theorem Arranged.sums_le (arranged : state.Arranged now) (accounts : state.Accounts)
    {move : Move} (member : sum ∈ state.sums graph lifetimes options move) :
    sum ≤ state.arenaEnd := by
  cases move with
  | place position tensor => exact arranged.placeSums_le accounts member
  | read step position name =>
    have counted : (state.countRead position).Arranged now := arranged.of_eq rfl rfl rfl
    exact counted.releaseUnreadSums_le member
  | drop step position name => exact arranged.releaseUnreadSums_le member

end Bounds

end PlannerState

/-- No sum that the planner forms is too large for an address. -/
theorem Graph.Makes.sums_lt {graph : Graph} {lifetimes : Lifetimes} {options : ArenaOptions}
    {state : PlannerState} {move : Move} (makes : graph.Makes lifetimes options state move)
    (exact : lifetimes.Exact graph) {sum : Nat}
    (member : sum ∈ state.sums graph lifetimes options move) : sum < sizeLimit := by
  obtain ⟨now, arranged⟩ := (makes.ready exact).arranged
  exact Nat.lt_of_le_of_lt (arranged.sums_le (makes.accounts exact) member)
    makes.within.small

end TensorArena
