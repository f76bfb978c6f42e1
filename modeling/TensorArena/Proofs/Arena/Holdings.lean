import TensorArena.Proofs.Arena.Schedule
import TensorArena.Proofs.Arena.Walk

/-!
# Holdings

The planner lists the tensors that hold a slot apart from the gaps. Both tell the same story: the
list has the tensors that have been placed and not been released, and their slots and the gaps fill
the arena up to its end.
-/

set_option autoImplicit false

namespace TensorArena

namespace PlanEntry

/-- The entry has a slot that has not been given back. -/
def isHeld (entry : PlanEntry) : Bool := entry.releasedAfter = none && entry.storage ≠ .rom

def holding (entry : PlanEntry) : Holding := ⟨entry.name, entry.storage.arenaSize⟩

theorem isHeld_iff {entry : PlanEntry} :
    entry.isHeld = true ↔ entry.releasedAfter = none ∧ entry.storage ≠ .rom := by
  simp [isHeld]

end PlanEntry

/-- The addresses of a gap as a slot. -/
def Gap.slot (gap : Gap) : Storage := .arena gap.offset gap.size

namespace PlannerState

/-- The entries whose slots are held. -/
def heldEntries (state : PlannerState) : List PlanEntry :=
  state.entries.filterMap (Option.filter PlanEntry.isHeld)

theorem mem_heldEntries {state : PlannerState} {entry : PlanEntry} :
    entry ∈ state.heldEntries ↔
      ∃ position, state.Holds position entry ∧ entry.isHeld = true := by
  unfold heldEntries
  rw [List.mem_filterMap]
  constructor
  · rintro ⟨noted, listed, chosen⟩
    obtain ⟨rfl, held⟩ := Option.filter_eq_some_iff.mp chosen
    obtain ⟨position, placed⟩ := List.mem_iff_getElem?.mp listed
    exact ⟨position, placed, held⟩
  · rintro ⟨position, placed, held⟩
    exact ⟨_, List.mem_of_getElem? placed, Option.filter_eq_some_iff.mpr ⟨rfl, held⟩⟩

theorem heldEntries_pairwise {state : PlannerState} {relation : PlanEntry → PlanEntry → Prop}
    (related : ∀ i j left right, i ≠ j → state.Holds i left → left.isHeld = true →
      state.Holds j right → right.isHeld = true → relation left right) :
    state.heldEntries.Pairwise relation := by
  unfold heldEntries
  rw [List.pairwise_filterMap, List.pairwise_iff_getElem]
  intro i j boundLeft boundRight below left isLeft right isRight
  obtain ⟨noted, leftHeld⟩ := Option.filter_eq_some_iff.mp isLeft
  obtain ⟨notedRight, rightHeld⟩ := Option.filter_eq_some_iff.mp isRight
  exact related i j left right (Nat.ne_of_lt below)
    ((List.getElem?_eq_getElem boundLeft).trans (congrArg some noted)) leftHeld
    ((List.getElem?_eq_getElem boundRight).trans (congrArg some notedRight)) rightHeld

/-- No two held slots belong to tensors of one name. -/
theorem Consistent.heldEntries_distinct {graph : Graph} {lifetimes : Lifetimes}
    {options : ArenaOptions} {now : Nat} {stage : Nat → Lifetime → Option Nat}
    {state : PlannerState} (exact : lifetimes.Exact graph)
    (consistent : state.Consistent graph lifetimes options now stage) :
    (state.heldEntries.map PlanEntry.name).Nodup := by
  refine List.pairwise_map.mpr (heldEntries_pairwise
    fun i j left right unlike placed isHeld placedRight alsoHeld same => unlike ?_)
  obtain ⟨_, _, _, declares, _, _, named, _⟩ :=
    consistent.declares_of_holds exact placed (PlanEntry.isHeld_iff.mp isHeld).1
  obtain ⟨_, _, _, otherDeclares, _, _, otherNamed, _⟩ :=
    consistent.declares_of_holds exact placedRight (PlanEntry.isHeld_iff.mp alsoHeld).1
  exact otherDeclares.position_eq exact declares (named.symm.trans (same.trans otherNamed))

/-- When an entry changes, all others stay held or not. -/
theorem heldEntries_set {state after : PlannerState} {position : Nat}
    {old new : Option PlanEntry} (found : state.entries[position]? = some old)
    (entries : after.entries = state.entries.set position new) :
    ((old.filter PlanEntry.isHeld).toList ++ after.heldEntries).Perm
      ((new.filter PlanEntry.isHeld).toList ++ state.heldEntries) := by
  obtain ⟨inside, rfl⟩ := List.getElem?_eq_some_iff.mp found
  let others := (state.entries.take position).filterMap (Option.filter PlanEntry.isHeld) ++
    (state.entries.drop (position + 1)).filterMap (Option.filter PlanEntry.isHeld)
  have moved : ∀ entry, ((state.entries.set position entry).filterMap
      (Option.filter PlanEntry.isHeld)).Perm
        ((entry.filter PlanEntry.isHeld).toList ++ others) := by
    intro entry
    rw [List.set_eq_take_append_cons_drop, if_pos inside, List.filterMap_append,
      List.filterMap_cons]
    cases entry.filter PlanEntry.isHeld with
    | none => exact .refl _
    | some entry => exact List.perm_middle
  have before := moved state.entries[position]
  rw [List.set_getElem_self] at before
  unfold heldEntries
  rw [entries]
  exact ((moved new).append_left _).trans
    (List.perm_append_comm_assoc .. |>.trans (before.symm.append_left _))

/-! ### The list of holdings -/

/-- The listed tensors are those with held slots, with the sizes of these. -/
def Accounts (state : PlannerState) : Prop :=
  state.held.Perm (state.heldEntries.map PlanEntry.holding)

theorem allocate_held {options : ArenaOptions} {tensor : String} {size : Nat}
    {slot : Nat × Option Nat} {state after : PlannerState}
    (success : state.allocate options tensor size = .ok (slot, after)) :
    after.held = state.held ++ [⟨tensor, size⟩] := by
  have grown : ∀ {taken : Nat × Option Nat} {grown : PlannerState},
      (Except.ok (taken, grown) : Except PlanError _) = .ok (slot, after) →
        grown.held = state.held ++ [⟨tensor, size⟩] → after.held = state.held ++ [⟨tensor, size⟩] :=
    fun same held => (Prod.mk.inj (Except.ok.inj same)).2 ▸ held
  unfold allocate at success
  split at success
  · exact grown success rfl
  · dsimp only at success
    split at success
    · cases success
    · split at success
      · exact grown success rfl
      · split at success
        · cases success
        · exact grown success rfl

theorem release_held {position : Nat} {state : PlannerState} {entry : PlanEntry}
    (held : state.Holds position entry) (step : Nat) :
    (state.release position step).held =
      if entry.storage = .rom then state.held
      else state.held.filter fun holding => holding.name ≠ entry.name := by
  unfold Holds at held
  unfold release
  rw [held]
  dsimp only
  cases entry.storage with
  | rom => rfl
  | arena offset size => rfl

namespace Accounts

variable {now position : Nat} {lifetimes : Lifetimes} {options : ArenaOptions} {tensor : Tensor}
  {state after : PlannerState}

/-- A tensor that gets a slot is listed. -/
theorem place (accounts : state.Accounts) (arranged : state.Arranged now)
    (unplaced : state.entries[position]? = some none)
    (success : state.place lifetimes options position tensor = .ok after) : after.Accounts := by
  obtain ⟨lifetime, _, ⟨_, rfl⟩ | ⟨_, size, offset, available, middle, sized, taken, rfl⟩⟩ :=
    place_cases success
  · have written : (state.noteEntry position tensor lifetime .rom none).entries =
        state.entries.set position _ := rfl
    exact accounts.trans ((heldEntries_set unplaced written).symm.map PlanEntry.holding)
  · have written : (middle.noteEntry position tensor lifetime (.arena offset size)
        available).entries = state.entries.set position (some ⟨tensor.name, lifetime.role,
          .arena offset size, lifetime.refcount, lifetime.interval, available, none⟩) := by
      rw [noteEntry, (allocate_eq_ok arranged taken).entries]
    have listed : middle.held.Perm (⟨tensor.name, size⟩ :: state.held) := by
      rw [allocate_held taken]
      exact List.perm_append_singleton ..
    exact listed.trans ((accounts.cons _).trans
      ((heldEntries_set unplaced written).symm.map PlanEntry.holding))

/-- A tensor whose slot is given back is listed no longer. -/
theorem release {entry : PlanEntry} (accounts : state.Accounts)
    (distinct : (state.heldEntries.map PlanEntry.name).Nodup)
    (held : state.Holds position entry) (unreleased : entry.releasedAfter = none) (step : Nat) :
    (state.release position step).Accounts := by
  have fewer : (((some entry).filter PlanEntry.isHeld).toList ++
      (state.release position step).heldEntries).Perm state.heldEntries :=
    heldEntries_set held (release_of_holds held step).1
  have kept := release_held held step
  unfold Accounts
  by_cases isRom : entry.storage = .rom
  · have unheld : (some entry).filter PlanEntry.isHeld = none := by simp [PlanEntry.isHeld, isRom]
    rw [unheld] at fewer
    rw [kept, if_pos isRom]
    exact accounts.trans (fewer.symm.map PlanEntry.holding)
  · have isHeld : (some entry).filter PlanEntry.isHeld = some entry := by
      simp [PlanEntry.isHeld, isRom, unreleased]
    rw [isHeld] at fewer
    obtain ⟨fresh, _⟩ := List.nodup_cons.mp ((fewer.map PlanEntry.name).nodup_iff.mpr distinct)
    have others : ((state.release position step).heldEntries.map PlanEntry.holding).filter
        (fun holding => holding.name ≠ entry.name) =
          (state.release position step).heldEntries.map PlanEntry.holding := by
      refine List.filter_eq_self.mpr fun holding listed => decide_eq_true fun same => fresh ?_
      obtain ⟨other, isOther, rfl⟩ := List.mem_map.mp listed
      exact List.mem_map.mpr ⟨other, isOther, same⟩
    rw [kept, if_neg isRom, ← others]
    have listed := accounts.trans (fewer.symm.map PlanEntry.holding)
    have filtered := listed.filter fun holding => holding.name ≠ entry.name
    simpa [PlanEntry.holding] using filtered

theorem releaseUnread {graph : Graph} {entry : PlanEntry} (accounts : state.Accounts)
    (distinct : (state.heldEntries.map PlanEntry.name).Nodup)
    (held : state.Holds position entry) (unreleased : entry.releasedAfter = none) (step : Nat)
    (name : String) : (state.releaseUnread graph step position name).Accounts := by
  unfold PlannerState.releaseUnread
  split
  · exact accounts.release distinct held unreleased step
  · exact accounts

theorem totalSize_eq (accounts : state.Accounts) :
    totalSize (state.held.map Holding.size) =
      totalSize (state.heldEntries.map fun entry => entry.storage.arenaSize) := by
  rw [totalSize_eq_sum, totalSize_eq_sum, (accounts.map Holding.size).sum_nat, List.map_map]
  rfl

end Accounts

/-! ### The gaps -/

/-- The slots that are held have no common address. -/
theorem Arranged.heldEntries_apart {now : Nat} {state : PlannerState}
    (arranged : state.Arranged now) :
    state.heldEntries.Pairwise fun left right =>
      ∀ address, left.storage.Covers address → ¬ right.storage.Covers address := by
  refine heldEntries_pairwise fun i j left right unlike placed isHeld placedRight alsoHeld =>
    fun address covers covered => ?_
  obtain ⟨_, _, given, _⟩ := arranged.succeeds placed (PlanEntry.isHeld_iff.mp isHeld).1
    unlike.symm placedRight covers covered
  cases (PlanEntry.isHeld_iff.mp alsoHeld).1.symm.trans given

/-- The held slots and the gaps share no address. -/
theorem Arranged.slots_apart {now : Nat} {state : PlannerState} (arranged : state.Arranged now) :
    (state.heldEntries.map PlanEntry.storage ++ state.gaps.map Gap.slot).Pairwise fun left right =>
      ∀ address, left.Covers address → ¬ right.Covers address := by
  refine List.pairwise_append.mpr ⟨List.pairwise_map.mpr arranged.heldEntries_apart,
    List.pairwise_map.mpr (arranged.canonical.apart.imp ?_), ?_⟩
  · intro lower upper below address covers covered
    have above : upper.offset ≤ address := covered.1
    have within : address < lower.stop := covers.2
    omega
  · intro storage isHeld slot isGap address covers covered
    obtain ⟨entry, listed, rfl⟩ := List.mem_map.mp isHeld
    obtain ⟨gap, member, rfl⟩ := List.mem_map.mp isGap
    obtain ⟨position, held, kept⟩ := mem_heldEntries.mp listed
    exact arranged.held position entry held (PlanEntry.isHeld_iff.mp kept).1 address gap.freedAfter
      covers ⟨gap, member, covered, rfl⟩

/-- An address below the end of the arena belongs to a held slot or to a gap. -/
theorem Arranged.slots_cover {now : Nat} {state : PlannerState} (arranged : state.Arranged now)
    (address : Nat) :
    (∃ slot ∈ state.heldEntries.map PlanEntry.storage ++ state.gaps.map Gap.slot,
      slot.Covers address) ↔ address < state.arenaEnd := by
  constructor
  · rintro ⟨slot, listed, covers⟩
    refine Nat.lt_of_lt_of_le covers.lt_stop ?_
    rcases List.mem_append.mp listed with isHeld | isGap
    · obtain ⟨entry, isEntry, rfl⟩ := List.mem_map.mp isHeld
      obtain ⟨position, held, _⟩ := mem_heldEntries.mp isEntry
      exact arranged.inside position entry held
    · obtain ⟨gap, member, rfl⟩ := List.mem_map.mp isGap
      exact arranged.gaps_inside gap member
  · intro inside
    rcases arranged.complete address inside with ⟨_, gap, member, covers, _⟩ |
      ⟨position, entry, held, unreleased, covers⟩
    · exact ⟨gap.slot, List.mem_append_right _ (List.mem_map_of_mem member), covers⟩
    · have listed := mem_heldEntries.mpr
        ⟨position, held, PlanEntry.isHeld_iff.mpr ⟨unreleased, covers.ne_rom⟩⟩
      exact ⟨entry.storage, List.mem_append_left _ (List.mem_map_of_mem listed), covers⟩

/-- The held slots and the gaps fill the arena up to its end. -/
theorem Arranged.tiled {now : Nat} {state : PlannerState} (arranged : state.Arranged now) :
    totalSize (state.heldEntries.map fun entry => entry.storage.arenaSize) +
      totalSize (state.gaps.map Gap.size) = state.arenaEnd := by
  have whole := totalSize_eq_of_tiled arranged.slots_apart state.arenaEnd arranged.slots_cover
  rw [List.map_append, List.map_map, List.map_map, totalSize_eq_sum, List.sum_append] at whole
  rw [totalSize_eq_sum, totalSize_eq_sum]
  exact whole

end PlannerState

namespace Graph.Makes

variable {graph : Graph} {lifetimes : Lifetimes} {options : ArenaOptions} {state : PlannerState}
  {move : Move}

/-- At every move the list of holdings has the tensors with held slots. -/
theorem accounts (makes : graph.Makes lifetimes options state move)
    (exact : lifetimes.Exact graph) : state.Accounts := by
  refine makes.induction (fun initial started => ?_)
    fun before made after makes accounts moved => ?_
  · obtain ⟨entries, remaining, rfl, waiting⟩ := initialState_eq_ok started
    have unheld : entries.filterMap (Option.filter PlanEntry.isHeld) = [] :=
      List.filterMap_eq_nil_iff.mpr fun entry member => by rw [waiting entry member]; rfl
    unfold PlannerState.Accounts PlannerState.heldEntries
    rw [unheld]
    exact .refl _
  · have ready := makes.ready exact
    cases made with
    | place position tensor =>
      obtain ⟨lifetime, stage, turn⟩ := ready
      exact accounts.place turn.consistent.arranged turn.unplaced moved
    | read step position name =>
      obtain ⟨tensor, lifetime, stage, inUse⟩ := ready
      obtain ⟨entry, held, unreleased⟩ := inUse.exists_entry
      have distinct := inUse.consistent.heldEntries_distinct exact
      have counted : (before.countRead position).Accounts := accounts
      obtain rfl := Except.ok.inj moved
      exact counted.releaseUnread distinct held unreleased step name
    | drop step position name =>
      obtain ⟨tensor, lifetime, stage, inUse⟩ := ready
      obtain ⟨entry, held, unreleased⟩ := inUse.exists_entry
      obtain rfl := Except.ok.inj moved
      exact accounts.releaseUnread (inUse.consistent.heldEntries_distinct exact) held unreleased
        step name

end Graph.Makes

end TensorArena
