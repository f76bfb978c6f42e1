import Mathlib.Order.Bounds.Basic
import TensorArena.Proofs.Arena.Ownership
import TensorArena.Proofs.Arena.Refusal
import TensorArena.Proofs.Arena.Walk

/-!
# Aligned slots

Sizes are rounded up to the alignment before slots are taken. All addresses that the planner
remembers are sums and differences of rounded sizes, so they are multiples of the alignment too.
-/

set_option autoImplicit false

namespace TensorArena

namespace ArenaOptions

variable {options : ArenaOptions}

/-- The multiples of the alignment that are no smaller than a length. -/
def roundings (options : ArenaOptions) (length : Nat) : Set Nat :=
  {multiple | options.alignment ∣ multiple ∧ length ≤ multiple}

theorem grain_eq_alignment (power : options.alignment.isPowerOfTwo) :
    options.grain = options.alignment := by
  obtain ⟨exponent, same⟩ := power
  have positive := Nat.two_pow_pos exponent
  unfold grain
  omega

/-- To clear the bits below the alignment is to round down. -/
theorem sub_and_mask (power : options.alignment.isPowerOfTwo) (padded : Nat) :
    padded - (padded &&& (options.grain - 1)) =
      options.alignment * (padded / options.alignment) := by
  rw [grain_eq_alignment power]
  obtain ⟨exponent, same⟩ := power
  rw [same, Nat.and_two_pow_sub_one_eq_mod]
  have := Nat.div_add_mod padded (2 ^ exponent)
  omega

/-- To add the alignment less one and then round down is to round up. -/
theorem isLeast_roundings (positive : 0 < options.alignment) (length : Nat) :
    IsLeast (options.roundings length)
      (options.alignment * ((length + (options.alignment - 1)) / options.alignment)) := by
  have whole := Nat.div_add_mod (length + (options.alignment - 1)) options.alignment
  have part := Nat.mod_lt (length + (options.alignment - 1)) positive
  refine ⟨⟨Nat.dvd_mul_right _ _, by omega⟩, ?_⟩
  rintro multiple ⟨⟨factor, rfl⟩, enough⟩
  apply Nat.mul_le_mul_left
  apply Nat.le_of_lt_succ
  rw [Nat.div_lt_iff_lt_mul positive, Nat.mul_comm, Nat.mul_succ]
  omega

/-- A rounded size is the least multiple of the alignment that is no smaller. -/
theorem isLeast_of_alignUp? (power : options.alignment.isPowerOfTwo) {length size : Nat}
    (found : options.alignUp? length = some size) :
    IsLeast (options.roundings length) size ∧ size < sizeLimit := by
  have positive : 0 < options.alignment := by
    obtain ⟨exponent, same⟩ := power
    exact same ▸ Nat.two_pow_pos exponent
  unfold alignUp? at found
  obtain ⟨padded, isPadded, rounded⟩ := Option.map_eq_some_iff.mp found
  obtain ⟨rfl, bounded⟩ := size?_eq_some_iff.mp isPadded
  have least := isLeast_roundings positive length
  have below := Nat.mul_div_le (length + (options.alignment - 1)) options.alignment
  rw [sub_and_mask power, grain_eq_alignment power] at rounded
  rw [rounded] at least below
  rw [grain_eq_alignment power] at bounded
  exact ⟨least, Nat.lt_of_le_of_lt below bounded⟩

end ArenaOptions

/-- Both ends of the gap are multiples. -/
def Gap.Aligned (grain : Nat) (gap : Gap) : Prop := grain ∣ gap.offset ∧ grain ∣ gap.size

/-- Both ends of the slot, if it is one of the arena, are multiples. -/
def Storage.Aligned (grain : Nat) : Storage → Prop
  | arena offset size => grain ∣ offset ∧ grain ∣ size
  | rom => True

namespace Gaps

/-! ### Gaps -/

/-- All ends of gaps are multiples. -/
def Aligned (grain : Nat) (gaps : List Gap) : Prop := ∀ gap ∈ gaps, gap.Aligned grain

namespace Aligned

variable {grain : Nat} {gaps : List Gap} {gap : Gap}

theorem erase (aligned : Aligned grain gaps) (offset : Nat) :
    Aligned grain (Gaps.erase offset gaps) :=
  fun other member => aligned other (List.mem_filter.mp member).1

theorem insert (aligned : Aligned grain gaps) (fresh : gap.Aligned grain) :
    Aligned grain (Gaps.insert gap gaps) := by
  intro other member
  rcases List.mem_append.mp member with below | member
  · exact aligned other (List.takeWhile_subset _ below)
  · rcases List.mem_cons.mp member with rfl | above
    · exact fresh
    · exact aligned other (List.dropWhile_subset _ above)

/-- What is left of a gap begins a multiple after it. -/
theorem firstFit? (aligned : Aligned grain gaps) {size : Nat} (sized : grain ∣ size)
    {rest : List Gap} (found : Gaps.firstFit? size gaps = some (gap, rest)) :
    gap.Aligned grain ∧ Aligned grain rest := by
  unfold Gaps.firstFit? at found
  obtain ⟨chosen, isFit, taken⟩ := Option.map_eq_some_iff.mp found
  have fits := aligned chosen (List.mem_of_find?_eq_some isFit)
  dsimp only at taken
  split at taken
  · obtain ⟨rfl, rfl⟩ := Prod.mk.inj taken
    exact ⟨fits, (aligned.erase _).insert
      ⟨Nat.dvd_add fits.1 sized, Nat.dvd_sub fits.2 sized⟩⟩
  · obtain ⟨rfl, rfl⟩ := Prod.mk.inj taken
    exact ⟨fits, aligned.erase _⟩

theorem lastGap? (aligned : Aligned grain gaps) {arenaEnd : Nat} {rest : List Gap}
    (found : Gaps.lastGap? arenaEnd gaps = some (gap, rest)) :
    gap.Aligned grain ∧ Aligned grain rest := by
  unfold Gaps.lastGap? at found
  split at found
  · rename_i last isLast
    split at found
    · obtain ⟨rfl, rfl⟩ := Prod.mk.inj (Option.some.inj found)
      exact ⟨aligned _ (List.mem_of_getLast? isLast), aligned.erase _⟩
    · cases found
  · cases found

theorem joinBelow (aligned : Aligned grain gaps) (fresh : gap.Aligned grain) :
    (Gaps.joinBelow gap gaps).1.Aligned grain ∧ Aligned grain (Gaps.joinBelow gap gaps).2 := by
  unfold Gaps.joinBelow
  split
  · rename_i below isBelow
    have lower := aligned below (List.mem_filter.mp (List.mem_of_getLast? isBelow)).1
    split
    · exact ⟨⟨lower.1, Nat.dvd_add lower.2 fresh.2⟩, aligned.erase _⟩
    · exact ⟨fresh, aligned⟩
  · exact ⟨fresh, aligned⟩

theorem joinAbove (aligned : Aligned grain gaps) (fresh : gap.Aligned grain) :
    (Gaps.joinAbove gap gaps).1.Aligned grain ∧ Aligned grain (Gaps.joinAbove gap gaps).2 := by
  unfold Gaps.joinAbove
  split
  · rename_i above isAbove
    have upper := aligned above (List.mem_of_find?_eq_some isAbove)
    exact ⟨⟨fresh.1, Nat.dvd_add fresh.2 upper.2⟩, aligned.erase _⟩
  · exact ⟨fresh, aligned⟩

theorem release (aligned : Aligned grain gaps) (fresh : gap.Aligned grain) :
    Aligned grain (Gaps.release gap gaps) := by
  unfold Gaps.release
  split
  · exact aligned
  · obtain ⟨lower, rest⟩ := aligned.joinBelow fresh
    obtain ⟨upper, rest⟩ := rest.joinAbove lower
    exact rest.insert upper

end Aligned

end Gaps

namespace PlannerState

/-! ### The planner's moves -/

/-- All addresses that the planner remembers are multiples. -/
structure Aligned (grain : Nat) (state : PlannerState) : Prop where
  gaps : Gaps.Aligned grain state.gaps
  arenaEnd : grain ∣ state.arenaEnd
  slots : ∀ entry, some entry ∈ state.entries → entry.storage.Aligned grain

namespace Aligned

variable {grain : Nat} {state after : PlannerState} {options : ArenaOptions}

/-- An entry whose slot is aligned takes the place of another one. -/
theorem slots_set (aligned : state.Aligned grain) {entry : PlanEntry}
    (slot : entry.storage.Aligned grain) (position : Nat) :
    ∀ other, some other ∈ state.entries.set position (some entry) →
      other.storage.Aligned grain := by
  intro other member
  rcases List.mem_or_eq_of_mem_set member with before | same
  · exact aligned.slots other before
  · exact Option.some.inj same ▸ slot

theorem allocate (aligned : state.Aligned grain) {tensor : String} {size offset : Nat}
    {available : Option Nat} (sized : grain ∣ size)
    (success : state.allocate options tensor size = .ok ((offset, available), after)) :
    after.Aligned grain ∧ grain ∣ offset := by
  cases fit : Gaps.firstFit? size state.gaps with
  | some taken =>
    simp only [PlannerState.allocate, fit] at success
    obtain ⟨slot, rfl⟩ := Prod.mk.inj (Except.ok.inj success)
    obtain ⟨rfl, -⟩ := Prod.mk.inj slot
    obtain ⟨gap, rest⟩ := aligned.gaps.firstFit? sized fit
    exact ⟨⟨rest, aligned.arenaEnd, aligned.slots⟩, gap.1⟩
  | none =>
    -- The slot starts with the last gap or at the end of the arena.
    have start : grain ∣ offset ∧ Gaps.Aligned grain after.gaps := by
      cases last : Gaps.lastGap? state.arenaEnd state.gaps with
      | none =>
        obtain ⟨rfl, _, gaps, _⟩ := allocate_of_noFit fit last success
        exact ⟨aligned.arenaEnd, gaps ▸ aligned.gaps⟩
      | some taken =>
        obtain ⟨rfl, _, gaps, _⟩ := allocate_of_noFit fit last success
        obtain ⟨gap, rest⟩ := aligned.gaps.lastGap? last
        exact ⟨gap.1, gaps ▸ rest⟩
    obtain ⟨_, _, _, arenaEnd, entries, _⟩ := allocate_of_noFit fit rfl success
    refine ⟨⟨start.2, ?_, entries ▸ aligned.slots⟩, start.1⟩
    rw [arenaEnd]
    rcases Nat.le_total state.arenaEnd (offset + size) with grows | stays
    · rw [Nat.max_eq_right grows]
      exact Nat.dvd_add start.1 sized
    · rw [Nat.max_eq_left stays]
      exact aligned.arenaEnd

theorem place (power : options.alignment.isPowerOfTwo) {lifetimes : Lifetimes} {position : Nat}
    {tensor : Tensor} (aligned : state.Aligned options.alignment)
    (success : state.place lifetimes options position tensor = .ok after) :
    after.Aligned options.alignment := by
  obtain ⟨lifetime, _, ⟨_, rfl⟩ | ⟨_, size, offset, available, middle, sized, taken, rfl⟩⟩ :=
    place_cases success
  · refine ⟨aligned.gaps, aligned.arenaEnd, aligned.slots_set ?_ position⟩
    exact trivial
  · obtain ⟨length, _, rounded⟩ := Option.bind_eq_some_iff.mp sized
    have multiple := (ArenaOptions.isLeast_of_alignUp? power rounded).1.1.1
    obtain ⟨aligned, start⟩ := aligned.allocate multiple taken
    refine ⟨aligned.gaps, aligned.arenaEnd, aligned.slots_set ?_ position⟩
    exact ⟨start, multiple⟩

theorem release (aligned : state.Aligned grain) (position step : Nat) :
    (state.release position step).Aligned grain := by
  rcases release_cases state position step with same | ⟨entry, held⟩
  · rw [same]
    exact aligned
  · have slot := aligned.slots entry (List.mem_of_getElem? held)
    obtain ⟨entries, arenaEnd, _, released⟩ := release_of_holds held step
    refine ⟨?_, arenaEnd ▸ aligned.arenaEnd, ?_⟩
    · rcases released with ⟨_, gaps⟩ | ⟨offset, size, storage, gaps⟩
      · rw [gaps]
        exact aligned.gaps
      · rw [storage] at slot
        rw [gaps]
        exact aligned.gaps.release slot
    · rw [entries]
      apply aligned.slots_set
      exact slot

/-- No move of the planner leaves the multiples of the alignment. -/
theorem preserves (power : options.alignment.isPowerOfTwo) (lifetimes : Lifetimes) :
    Preserves lifetimes options (Aligned options.alignment) where
  place aligned success := aligned.place power success
  countRead _ aligned := ⟨aligned.gaps, aligned.arenaEnd, aligned.slots⟩
  release position step aligned := aligned.release position step

end Aligned

end PlannerState

namespace Graph

variable {graph : Graph} {lifetimes : Lifetimes} {options : ArenaOptions}

theorem aligned_of_plan (power : options.alignment.isPowerOfTwo)
    (exact : lifetimes.Exact graph) {plan : Plan}
    (success : graph.plan lifetimes options = .ok plan) :
    options.alignment ∣ plan.arenaSize ∧
      ∀ entry ∈ plan.entries, entry.storage.Aligned options.alignment := by
  obtain ⟨final, aligned, arenaEnd, collected⟩ :=
    (PlannerState.Aligned.preserves power lifetimes).plan exact
      (fun entries remaining waiting =>
        ⟨nofun, Nat.dvd_zero _, fun entry member => nomatch waiting _ member⟩) success
  refine ⟨arenaEnd ▸ aligned.arenaEnd, fun entry member => ?_⟩
  exact aligned.slots entry (mem_of_collectEntries collected member)

/-- Without a limit on the arena only sizes can be too large. -/
theorem plan_eq_error_of_unlimited (exact : lifetimes.Exact graph)
    (unlimited : options.arenaLimit = none) {error : PlanError}
    (failed : graph.plan lifetimes options = .error error) :
    ∃ name, error = .sizeOverflow name := by
  obtain ⟨state, position, tensor, makes, failed⟩ := exists_place_of_plan_eq_error exact failed
  obtain ⟨lifetime, _, turn⟩ := makes.ready exact
  obtain ⟨_, outcome⟩ := PlannerState.place_eq_error (turn.declares.get? exact) failed
  rcases outcome with sizeOverflow | ⟨_, _, _, _, limited, _⟩
  · exact ⟨tensor.name, sizeOverflow⟩
  · rw [unlimited] at limited
    cases limited

end Graph

/-- The slot of a tensor is as large as its rounded length. -/
theorem PlanEntry.Records.isLeast {options : ArenaOptions} {tensor : Tensor} {lifetime : Lifetime}
    {clock offset size : Nat} {entry : PlanEntry}
    (records : entry.Records options tensor lifetime clock)
    (power : options.alignment.isPowerOfTwo) (isArena : entry.storage = .arena offset size) :
    ∃ length, tensor.byteLength? = some length ∧ IsLeast (options.roundings length) size ∧
      size < sizeLimit := by
  have held : lifetime.role ≠ .constant := by
    intro constant
    cases isArena.symm.trans (records.constant constant)
  obtain ⟨_, _, storage, sized⟩ := records.sized held
  obtain ⟨rfl, rfl⟩ := Storage.arena.inj (isArena.symm.trans storage)
  obtain ⟨length, isLength, rounded⟩ := Option.bind_eq_some_iff.mp sized
  exact ⟨length, isLength, ArenaOptions.isLeast_of_alignUp? power rounded⟩

namespace Graph

/-- Slots are aligned and no larger than they must be, for every alignment that is a power of two
and every execution that stops after the first `count` operators. The offset and the size of each
slot and the size of the arena are multiples of the alignment. The slot of a tensor has the least
such size that holds the tensor. Without a limit, the plan fails for a size that is too large as
soon as a tensor outside the constants has no length, or one that rounds to `sizeLimit` or more. -/
theorem plan_aligned (graph : Graph) (count : Nat) (options : ArenaOptions) (lifetimes : Lifetimes)
    (power : options.alignment.isPowerOfTwo)
    (analysed : (graph.truncate count).lifetimes = .ok lifetimes) :
    (∀ plan, (graph.truncate count).plan lifetimes options = .ok plan →
      options.alignment ∣ plan.arenaSize ∧
        ∀ entry ∈ plan.entries, ∀ offset size, entry.storage = .arena offset size →
          options.alignment ∣ offset ∧ options.alignment ∣ size ∧
            ∃ tensor ∈ graph.tensors, tensor.name = entry.name ∧
              ∃ length, tensor.byteLength? = some length ∧
                IsLeast (options.roundings length) size) ∧
      (options.arenaLimit = none → ∀ tensor ∈ graph.tensors,
        graph.role? tensor.name ≠ some .constant →
        (tensor.byteLength? = none ∨ ∃ length rounded, tensor.byteLength? = some length ∧
          IsLeast (options.roundings length) rounded ∧ sizeLimit ≤ rounded) →
        ∃ name, (graph.truncate count).plan lifetimes options = .error (.sizeOverflow name)) := by
  have exact := Graph.lifetimes_eq_ok analysed
  constructor
  · intro plan planned
    have fits := plan_eq_ok exact planned
    obtain ⟨arenaSize, slots⟩ := aligned_of_plan power exact planned
    refine ⟨arenaSize, fun entry member offset size isArena => ?_⟩
    obtain ⟨start, multiple⟩ : (Storage.arena offset size).Aligned options.alignment :=
      isArena ▸ slots entry member
    obtain ⟨position, found⟩ := List.mem_iff_getElem?.mp member
    obtain ⟨tensor, lifetime, declares, records⟩ := fits.declares_of_entry exact found
    obtain ⟨length, isLength, least, _⟩ := records.isLeast power isArena
    exact ⟨start, multiple, tensor, List.mem_of_getElem? declares.1,
      (declares.pair exact).1.symm.trans records.name.symm, length, isLength, least⟩
  · intro unlimited tensor member held large
    cases planned : (graph.truncate count).plan lifetimes options with
    | error error =>
      obtain ⟨name, rfl⟩ := plan_eq_error_of_unlimited exact unlimited planned
      exact ⟨name, rfl⟩
    | ok plan =>
      obtain ⟨position, present⟩ := List.mem_iff_getElem?.mp member
      obtain ⟨lifetime, declares⟩ := exact.declares_of_tensor present
      obtain ⟨named, known⟩ := declares.pair exact
      obtain ⟨entry, _, records⟩ := (plan_eq_ok exact planned).records _ _ _ declares
      have stored : lifetime.role ≠ .constant := by
        intro constant
        apply held
        rw [← constant, ← known.role, named]
        rfl
      obtain ⟨offset, size, isArena, _⟩ := records.sized stored
      obtain ⟨length, isLength, least, small⟩ := records.isLeast power isArena
      rcases large with endless | ⟨other, rounded, isOther, leastOther, large⟩
      · cases endless.symm.trans isLength
      · obtain rfl := Option.some.inj (isLength.symm.trans isOther)
        obtain rfl := least.unique leastOther
        exact absurd small (Nat.not_lt_of_le large)

/-- A tensor with more bytes than there are addresses. -/
def vast : Graph where
  name := "vast"
  tensors := [{ name := "x", kind := .si8, shape := [4294967296, 4294967296] }]
  operators := []
  inputs := ["x"]
  outputs := ["x"]

/-- The relay's tensors of four bytes get slots of eight, and the vast tensor gets none. -/
theorem relay_aligned :
    (∃ lifetimes plan entry, (relay.truncate 3).lifetimes = .ok lifetimes ∧
      (relay.truncate 3).plan lifetimes ⟨none, 8⟩ = .ok plan ∧ plan.entry? "s" = some entry ∧
      entry.storage = .arena 8 8 ∧ 8 ∣ plan.arenaSize ∧ 8 ∣ 8) ∧
      ∃ lifetimes name, (vast.truncate 0).lifetimes = .ok lifetimes ∧
        (vast.truncate 0).plan lifetimes ⟨none, 8⟩ = .error (.sizeOverflow name) := by
  constructor
  · have aligned := (plan_aligned relay 3 ⟨none, 8⟩ _ ⟨3, rfl⟩ rfl).1 _ rfl
    exact ⟨_, _, _, rfl, rfl, rfl, rfl, aligned.1,
      (aligned.2 _ (List.mem_cons_of_mem _ (List.mem_cons_of_mem _ List.mem_cons_self)) 8 8 rfl).1⟩
  · obtain ⟨name, failed⟩ := (plan_aligned vast 0 ⟨none, 8⟩ _ ⟨3, rfl⟩ rfl).2 rfl _
      List.mem_cons_self (by decide) (.inl rfl)
    exact ⟨_, name, rfl, failed⟩

end Graph

end TensorArena
