import TensorArena.Proofs.Arena.Holdings
import TensorArena.Proofs.Arena.Limit
import TensorArena.Proofs.Arena.Refusal

/-!
# Overflow of the arena

A slot that would end past the limit is refused. The error tells which tensors hold slots at that
moment and how many bytes these have. With the gaps between them they make up the arena, and no gap
within the limit is large enough.
-/

set_option autoImplicit false

namespace TensorArena

namespace PlannerState

/-! ### The end of the arena -/

/-- The arena ends within the limit, at an address. -/
structure Within (options : ArenaOptions) (state : PlannerState) : Prop where
  small : state.arenaEnd < sizeLimit
  limited : ∀ limit, options.arenaLimit = some limit → state.arenaEnd ≤ limit

namespace Within

variable {options : ArenaOptions} {state after : PlannerState}

theorem of_eq (within : state.Within options) (same : after.arenaEnd = state.arenaEnd) :
    after.Within options :=
  ⟨same ▸ within.small, same ▸ within.limited⟩

theorem allocate (within : state.Within options) {tensor : String} {size : Nat}
    {slot : Nat × Option Nat} (success : state.allocate options tensor size = .ok (slot, after)) :
    after.Within options := by
  unfold PlannerState.allocate at success
  split at success
  · obtain ⟨_, rfl⟩ := Prod.mk.inj (Except.ok.inj success)
    exact within.of_eq rfl
  · dsimp only at success
    split at success
    · cases success
    · rename_i required sized
      obtain ⟨isSum, isSize⟩ := size?_eq_some_iff.mp sized
      have small := Nat.max_lt.mpr ⟨within.small, isSum.trans_lt isSize⟩
      split at success
      · rename_i unlimited
        obtain ⟨_, rfl⟩ := Prod.mk.inj (Except.ok.inj success)
        exact ⟨small, fun limit limited => nomatch unlimited.symm.trans limited⟩
      · rename_i limit isLimit
        split at success
        · cases success
        · rename_i fits
          obtain ⟨_, rfl⟩ := Prod.mk.inj (Except.ok.inj success)
          refine ⟨small, fun other limited => ?_⟩
          obtain rfl := Option.some.inj (isLimit.symm.trans limited)
          exact Nat.max_le.mpr ⟨within.limited limit limited, Nat.le_of_not_lt fits⟩

theorem preserves (lifetimes : Lifetimes) (options : ArenaOptions) :
    Preserves lifetimes options (Within options) where
  place within success := by
    obtain ⟨lifetime, _, ⟨_, rfl⟩ | ⟨_, size, offset, available, middle, _, taken, rfl⟩⟩ :=
      place_cases success
    · exact within.of_eq rfl
    · exact (within.allocate taken).of_eq rfl
  countRead _ within := within.of_eq rfl
  release {state} position step within := by
    rcases release_cases state position step with same | ⟨entry, held⟩
    · rw [same]
      exact within
    · exact within.of_eq (release_of_holds held step).2.1

theorem empty (options : ArenaOptions) (entries : List (Option PlanEntry))
    (remaining : List Nat) : Within options ⟨[], 0, [], entries, remaining⟩ :=
  ⟨show 0 < sizeLimit by decide, fun _ _ => Nat.zero_le _⟩

end Within

end PlannerState

theorem Graph.Makes.within {graph : Graph} {lifetimes : Lifetimes} {options : ArenaOptions}
    {state : PlannerState} {move : Move} (makes : graph.Makes lifetimes options state move) :
    state.Within options :=
  makes.of_preserves (PlannerState.Within.preserves lifetimes options)
    fun entries remaining _ => .empty options entries remaining

namespace PlannerState

/-! ### The report -/

/-- What the error says when the slot of a tensor would end past the limit. -/
structure Reports (graph : Graph) (lifetimes : Lifetimes) (options : ArenaOptions)
    (state : PlannerState) (own : Lifetime) (requested required limit liveBytes : Nat)
    (live : List String) : Prop where
  limited : options.arenaLimit = some limit
  ascending : live.Pairwise (· ≤ ·)
  distinct : live.Nodup
  held : live.Perm (state.heldEntries.map PlanEntry.name)
  /-- A tensor is live if it gets its slot before and is needed until this one is written. -/
  needed : ∀ name, name ∈ live ↔ ∃ lifetime ∈ lifetimes.tensors, lifetime.name = name ∧
    lifetime.role ≠ .constant ∧ graph.AllocatedBefore name own.name ∧
      own.interval.start ≤ lifetime.interval.stop
  bytes : liveBytes = totalSize (state.heldEntries.map fun entry => entry.storage.arenaSize)
  free : Gaps.Canonical state.gaps ∧ ∀ address, (∃ gap ∈ state.gaps, gap.Covers address) ↔
    address < state.arenaEnd ∧ ∀ entry ∈ state.heldEntries, ¬ entry.storage.Covers address
  tiled : liveBytes + totalSize (state.gaps.map Gap.size) = state.arenaEnd
  within : state.arenaEnd ≤ limit
  past : limit < required
  /-- Wherever the slot might be within the limit, it would meet one that is held. -/
  crowded : ∀ offset, offset + requested ≤ limit → ∃ entry ∈ state.heldEntries,
    (Storage.arena offset requested).overlaps entry.storage = true

section Report

variable {graph : Graph} {lifetimes : Lifetimes} {options : ArenaOptions} {state : PlannerState}
  {position : Nat} {tensor : Tensor} {lifetime : Lifetime} {stage : Nat → Lifetime → Option Nat}

/-- The gaps are what the held slots leave of the arena. -/
theorem Arranged.covers_gap_iff {now : Nat} (arranged : state.Arranged now) (address : Nat) :
    (∃ gap ∈ state.gaps, gap.Covers address) ↔
      address < state.arenaEnd ∧ ∀ entry ∈ state.heldEntries, ¬ entry.storage.Covers address := by
  constructor
  · rintro ⟨gap, member, covered⟩
    refine ⟨Nat.lt_of_lt_of_le covered.2 (arranged.gaps_inside gap member), ?_⟩
    intro entry listed covers
    obtain ⟨position, held, kept⟩ := mem_heldEntries.mp listed
    exact arranged.held position entry held (PlanEntry.isHeld_iff.mp kept).1 address gap.freedAfter
      covers ⟨gap, member, covered, rfl⟩
  · rintro ⟨inside, unheld⟩
    obtain ⟨slot, listed, covers⟩ := (arranged.slots_cover address).mpr inside
    rcases List.mem_append.mp listed with isHeld | isGap
    · obtain ⟨entry, member, rfl⟩ := List.mem_map.mp isHeld
      exact absurd covers (unheld entry member)
    · obtain ⟨gap, member, rfl⟩ := List.mem_map.mp isGap
      exact ⟨gap, member, covers⟩

/-- The tensors with held slots are those that get them before this one and are needed until it is
written. -/
theorem Turn.mem_heldEntries_iff
    (turn : state.Turn graph lifetimes options position tensor lifetime stage)
    (exact : lifetimes.Exact graph) (isSlot : lifetime.role ≠ .constant) (name : String) :
    name ∈ state.heldEntries.map PlanEntry.name ↔
      ∃ other ∈ lifetimes.tensors, other.name = name ∧ other.role ≠ .constant ∧
        graph.AllocatedBefore name lifetime.name ∧
          lifetime.interval.start ≤ other.interval.stop := by
  have known := (turn.declares.pair exact).2
  rw [List.mem_map]
  constructor
  · rintro ⟨entry, listed, rfl⟩
    obtain ⟨index, held, kept⟩ := mem_heldEntries.mp listed
    obtain ⟨unreleased, stored⟩ := PlanEntry.isHeld_iff.mp kept
    obtain ⟨_, other, clock, declares, reached, unfinished, named, _, isRom⟩ :=
      turn.consistent.declares_of_holds exact held unreleased
    have otherSlot : other.role ≠ .constant := mt isRom stored
    have placed : stage index other ≠ none := by
      rw [reached]
      exact nofun
    have now := turn.current index other clock reached
    rw [named]
    refine ⟨other, List.mem_of_getElem? declares.2, rfl, otherSlot,
      (turn.earlier isSlot index _ other declares otherSlot).mp placed, by omega⟩
  · rintro ⟨other, member, rfl, otherSlot, before, needed⟩
    obtain ⟨index, otherTensor, declares⟩ := exact.declares_of_mem member
    have placed := (turn.earlier isSlot index otherTensor other declares otherSlot).mpr before
    obtain ⟨clock, reached⟩ := Option.ne_none_iff_exists'.mp placed
    have now := turn.current index other clock reached
    have tracks := turn.consistent.tracks index otherTensor other declares
    rw [reached] at tracks
    obtain ⟨⟨entry, held, records⟩, _⟩ := tracks
    have positive := (declares.pair exact).2.stop_pos
    have unreleased : entry.releasedAfter = none := by
      rw [records.releasedAfter, if_neg (by omega)]
    have stored : entry.storage ≠ .rom := by
      obtain ⟨_, _, isArena, _⟩ := records.sized otherSlot
      rw [isArena]
      exact nofun
    exact ⟨entry, mem_heldEntries.mpr ⟨index, held, PlanEntry.isHeld_iff.mpr
      ⟨unreleased, stored⟩⟩, records.name⟩

/-- A request that is refused for the limit fits nowhere between the held slots. -/
theorem Arranged.crowded {now alignment limit size required bytes : Nat} {name : String}
    {live : List String} (arranged : state.Arranged now) (within : state.arenaEnd ≤ limit)
    (failed : state.allocate ⟨some limit, alignment⟩ name size =
      .error (.arenaOverflow name size required limit bytes live)) {offset : Nat}
    (inside : offset + size ≤ limit) :
    ∃ entry ∈ state.heldEntries, (Storage.arena offset size).overlaps entry.storage = true := by
  rcases allocate_gated name size alignment within with ⟨same, _⟩ |
    ⟨lowest, available, after, _, _, taken, past, grown, _⟩
  · rw [same] at failed
    rcases allocate_eq_error failed with other | ⟨_, _, limited, _⟩
    · cases other
    · cases limited
  · -- Without the limit the slot would be at the lowest offset, where it ends past the limit.
    have allocated := allocate_eq_ok arranged taken
    have grows := allocated.grows
    have positive : 0 < size := by
      simp only [Storage.arenaSize] at grows
      omega
    obtain ⟨address, covers, below, taken⟩ :=
      allocated.lowest lowest size rfl positive offset (by omega)
    rcases arranged.complete address below with ⟨step, free⟩ |
      ⟨position, entry, held, unreleased, covered⟩
    · exact absurd free (taken step)
    · exact ⟨entry, mem_heldEntries.mpr ⟨position, held, PlanEntry.isHeld_iff.mpr
        ⟨unreleased, covered.ne_rom⟩⟩, (Storage.overlaps_iff _ _).mpr ⟨address, covers, covered⟩⟩

/-- What the error reports of the state in which a tensor gets no slot. -/
theorem Turn.reports {requested required limit liveBytes : Nat} {name : String}
    {live : List String}
    (turn : state.Turn graph lifetimes options position tensor lifetime stage)
    (exact : lifetimes.Exact graph) (accounts : state.Accounts) (within : state.Within options)
    (failed : state.place lifetimes options position tensor =
      .error (.arenaOverflow name requested required limit liveBytes live)) :
    tensor.name = name ∧ tensor.byteLength?.bind options.alignUp? = some requested ∧
      state.Reports graph lifetimes options lifetime requested required limit liveBytes live := by
  obtain ⟨isSlot, outcome⟩ := place_eq_error (turn.declares.get? exact) failed
  rcases outcome with other | ⟨size, bound, stop, sized, limited, past, refused, same⟩
  · cases other
  · obtain ⟨rfl, rfl, rfl, rfl, rfl, rfl⟩ := PlanError.arenaOverflow.inj same
    have arranged := turn.consistent.arranged
    have names : (sortNames (state.held.map Holding.name)).Perm
        (state.heldEntries.map PlanEntry.name) := by
      refine (sortNames_perm _).trans ((accounts.map Holding.name).trans ?_)
      rw [List.map_map]
      exact .refl _
    refine ⟨rfl, sized, limited, sortNames_ascending _,
      names.nodup_iff.mpr (turn.consistent.heldEntries_distinct exact), names,
      fun name => names.mem_iff.trans (turn.mem_heldEntries_iff exact isSlot name),
      accounts.totalSize_eq, ⟨arranged.canonical, arranged.covers_gap_iff⟩,
      accounts.totalSize_eq ▸ arranged.tiled,
      within.limited _ limited, past, fun offset inside => ?_⟩
    obtain ⟨_, alignment⟩ := options
    subst limited
    exact arranged.crowded (within.limited _ rfl) refused inside

end Report

end PlannerState

namespace Graph

/-- The error of an arena that is too small reports the tensors that hold slots, for every graph,
every execution that stops after the first `count` operators and all options. The planner goes
through its moves in order, and it fails when it comes to place the tensor that is named. The live
tensors are then those that have been placed and not been released. Their slots and the gaps fill
the arena, which ends within the limit. The slot that is requested would end past it, and there is
no room for it between the held slots up to the limit. -/
theorem overflow_reports_held (graph : Graph) (count : Nat) (options : ArenaOptions)
    (lifetimes : Lifetimes) (tensor : String) (requested required limit liveBytes : Nat)
    (live : List String) (analysed : (graph.truncate count).lifetimes = .ok lifetimes)
    (failed : (graph.truncate count).plan lifetimes options =
      .error (.arenaOverflow tensor requested required limit liveBytes live)) :
    (graph.truncate count).plan lifetimes options =
        (graph.truncate count).planByMoves lifetimes options ∧
      ∃ state position placed, ∃ own ∈ lifetimes.tensors,
        (graph.truncate count).Makes lifetimes options state (.place position placed) ∧
        state.place lifetimes options position placed =
          .error (.arenaOverflow tensor requested required limit liveBytes live) ∧
        placed.name = tensor ∧ own.name = tensor ∧
        placed.byteLength?.bind options.alignUp? = some requested ∧
        state.Reports (graph.truncate count) lifetimes options own requested required limit
          liveBytes live := by
  have exact := Graph.lifetimes_eq_ok analysed
  generalize graph.truncate count = graph at exact failed ⊢
  refine ⟨plan_eq_planByMoves exact options, ?_⟩
  obtain ⟨state, position, placed, makes, failed⟩ := exists_place_of_plan_eq_error exact failed
  obtain ⟨own, stage, turn⟩ := makes.ready exact
  obtain ⟨named, sized, reports⟩ := turn.reports exact (makes.accounts exact) makes.within failed
  exact ⟨state, position, placed, own, List.mem_of_getElem? turn.declares.2, makes, failed, named,
    (turn.declares.pair exact).1.trans named, sized, reports⟩

/-- A graph whose first step leaves a gap that is too small for its second one. -/
def fragmented : Graph where
  name := "fragmented"
  tensors := [
    { name := "x", kind := .f32, shape := [4] },
    { name := "y", kind := .f32, shape := [4] },
    { name := "a", kind := .f32, shape := [4] },
    { name := "b", kind := .f32, shape := [8] }]
  operators := [
    { opType := "ReLU", inputs := ["x"], outputs := ["a"] },
    { opType := "Concat", inputs := ["a", "y"], outputs := ["b"] }]
  inputs := ["x", "y"]
  outputs := ["b"]

/-- The slot of `b` would fit beside the 32 bytes that are live, were these in one piece. -/
theorem fragmented_reports_held :
    ∃ lifetimes state own, (fragmented.truncate 2).lifetimes = .ok lifetimes ∧
      (fragmented.truncate 2).plan lifetimes ⟨some 64, 4⟩ =
        .error (.arenaOverflow "b" 32 80 64 32 ["a", "y"]) ∧ own.name = "b" ∧
      PlannerState.Reports (fragmented.truncate 2) lifetimes ⟨some 64, 4⟩ state own 32 80 64 32
        ["a", "y"] := by
  have sorted : sortNames ["y", "a"] = ["a", "y"] := by simp [sortNames, List.mergeSort]
  obtain ⟨_, state, _, _, own, _, _, _, _, named, _, reports⟩ :=
    overflow_reports_held fragmented 2 ⟨some 64, 4⟩ _ "b" 32 80 64 32 ["a", "y"] rfl (sorted ▸ rfl)
  exact ⟨_, state, own, rfl, sorted ▸ rfl, named, reports⟩

end Graph

end TensorArena
