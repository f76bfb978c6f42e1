import TensorArena.Arena.Planner
import TensorArena.Proofs.Arena.Gaps
import TensorArena.Proofs.Tensor.Size

/-!
# The arrangement of the arena

While the planner works, the slots that are held and the gaps share no address, and together they
fill the arena up to its end. Two slots may share an address only if one was given back before the
other was taken, and the plan notes a release that is no earlier.
-/

set_option autoImplicit false

namespace TensorArena

/-- The slot of the one was given back before the slot of the other was taken, and the other notes a
release that is no earlier. -/
def PlanEntry.Succeeds (later earlier : PlanEntry) : Prop :=
  ∃ released available, earlier.releasedAfter = some released ∧
    later.availableAfter = some available ∧ released ≤ available ∧
    available + 1 < later.interval.start

/-- The arena bytes of a tensor that may not have been placed. -/
def takenBytes (entry : Option PlanEntry) : Nat :=
  (entry.map fun entry => entry.storage.arenaSize).getD 0

namespace PlannerState

/-- The tensor at the position has been placed. -/
def Holds (state : PlannerState) (position : Nat) (entry : PlanEntry) : Prop :=
  state.entries[position]? = some (some entry)

/-- The state of the arena before the releases of step `now`. -/
structure Arranged (now : Nat) (state : PlannerState) : Prop where
  canonical : Gaps.Canonical state.gaps
  gaps_inside : ∀ gap ∈ state.gaps, gap.stop ≤ state.arenaEnd
  earlier : ∀ gap ∈ state.gaps, gap.freedAfter < now
  inside : ∀ position entry, state.Holds position entry → entry.storage.stop ≤ state.arenaEnd
  held : ∀ position entry, state.Holds position entry → entry.releasedAfter = none →
    ∀ address step, entry.storage.Covers address → ¬ Gaps.Free state.gaps address step
  complete : ∀ address < state.arenaEnd, (∃ step, Gaps.Free state.gaps address step) ∨
    ∃ position entry, state.Holds position entry ∧ entry.releasedAfter = none ∧
      entry.storage.Covers address
  released : ∀ position entry last, state.Holds position entry →
    entry.releasedAfter = some last → ∀ address step, entry.storage.Covers address →
      Gaps.Free state.gaps address step → last ≤ step
  past : ∀ position entry last, state.Holds position entry →
    entry.releasedAfter = some last → last < now
  apart : ∀ i j left right, i ≠ j → state.Holds i left → state.Holds j right →
    ∀ address, left.storage.Covers address → right.storage.Covers address →
      left.Succeeds right ∨ right.Succeeds left
  reached : state.arenaEnd = 0 ∨
    ∃ position entry, state.Holds position entry ∧ entry.storage.stop = state.arenaEnd
  taken : state.arenaEnd ≤ totalSize (state.entries.map takenBytes)

theorem Arranged.later {now next : Nat} {state : PlannerState} (arranged : state.Arranged now)
    (later : now ≤ next) : state.Arranged next :=
  { arranged with
    earlier := fun gap member => Nat.lt_of_lt_of_le (arranged.earlier gap member) later
    past := fun position entry last held released =>
      Nat.lt_of_lt_of_le (arranged.past position entry last held released) later }

/-- The arrangement is one of gaps and entries only. -/
theorem Arranged.of_eq {now : Nat} {state after : PlannerState} (arranged : state.Arranged now)
    (gaps : after.gaps = state.gaps) (arenaEnd : after.arenaEnd = state.arenaEnd)
    (entries : after.entries = state.entries) : after.Arranged now := by
  obtain ⟨_, _, held, _, remaining⟩ := after
  subst gaps arenaEnd entries
  exact ⟨arranged.canonical, arranged.gaps_inside, arranged.earlier, arranged.inside,
    arranged.held, arranged.complete, arranged.released, arranged.past, arranged.apart,
    arranged.reached, arranged.taken⟩

/-- An entry is written at one position. -/
theorem holds_set_iff {state after : PlannerState} {position i : Nat} {old : Option PlanEntry}
    {entry other : PlanEntry} (found : state.entries[position]? = some old)
    (entries : after.entries = state.entries.set position (some entry)) :
    after.Holds i other ↔
      (i = position ∧ other = entry) ∨ (i ≠ position ∧ state.Holds i other) := by
  have inside := (List.getElem?_eq_some_iff.mp found).1
  unfold Holds
  rw [entries, List.getElem?_set]
  by_cases same : position = i
  · subst same
    simp [inside, eq_comm]
  · simp [same, Ne.symm same]

/-- The placing of a tensor leaves those alone that were placed before. -/
theorem Holds.of_set {state after : PlannerState} {position i : Nat} {entry other : PlanEntry}
    (held : state.Holds i other) (unplaced : state.entries[position]? = some none)
    (entries : after.entries = state.entries.set position (some entry)) : after.Holds i other := by
  refine (holds_set_iff unplaced entries).mpr (.inr ⟨?_, held⟩)
  rintro rfl
  cases unplaced.symm.trans held

/-- Slots stay apart when an entry is written that shares addresses only with its predecessors. -/
theorem Arranged.apart_set {now position : Nat} {state after : PlannerState}
    {old : Option PlanEntry} {entry : PlanEntry} (arranged : state.Arranged now)
    (found : state.entries[position]? = some old)
    (entries : after.entries = state.entries.set position (some entry))
    (former : ∀ i other, i ≠ position → state.Holds i other → ∀ address,
      entry.storage.Covers address → other.storage.Covers address → entry.Succeeds other) :
    ∀ i j left right, i ≠ j → after.Holds i left → after.Holds j right → ∀ address,
      left.storage.Covers address → right.storage.Covers address →
        left.Succeeds right ∨ right.Succeeds left := by
  intro i j left right unlike heldLeft heldRight address inLeft inRight
  rcases (holds_set_iff found entries).mp heldLeft with ⟨rfl, rfl⟩ | ⟨isLeft, heldLeft⟩
  · rcases (holds_set_iff found entries).mp heldRight with ⟨rfl, rfl⟩ | ⟨isRight, heldRight⟩
    · exact absurd rfl unlike
    · exact .inl (former j right isRight heldRight address inLeft inRight)
  · rcases (holds_set_iff found entries).mp heldRight with ⟨rfl, rfl⟩ | ⟨_, heldRight⟩
    · exact .inr (former i left isLeft heldLeft address inRight inLeft)
    · exact arranged.apart i j left right unlike heldLeft heldRight address inLeft inRight

theorem totalSize_set {entries : List (Option PlanEntry)} {position : Nat}
    {before : Option PlanEntry} (found : entries[position]? = some before)
    (after : Option PlanEntry) :
    totalSize ((entries.set position after).map takenBytes) + takenBytes before =
      totalSize (entries.map takenBytes) + takenBytes after := by
  induction entries generalizing position with
  | nil => simp at found
  | cons first rest ih =>
    cases position with
    | zero =>
      obtain rfl : first = before := by simpa using found
      simp only [List.set_cons_zero, List.map_cons, totalSize]
      omega
    | succ position =>
      have tail := ih (by simpa using found)
      simp only [List.set_cons_succ, List.map_cons, totalSize]
      omega

/-! ### Allocation -/

/-- The addresses of a storage have been taken from the gaps, or from the end of the arena. At any
lower offset the slot would have met an address in use. -/
structure Allocated (state : PlannerState) (storage : Storage) (available : Option Nat)
    (after : PlannerState) : Prop where
  entries : after.entries = state.entries
  remaining : after.remaining = state.remaining
  canonical : Gaps.Canonical after.gaps
  free : ∀ address step, Gaps.Free after.gaps address step ↔
    Gaps.Free state.gaps address step ∧ ¬ storage.Covers address
  arenaEnd : after.arenaEnd = max state.arenaEnd storage.stop
  grows : after.arenaEnd ≤ state.arenaEnd + storage.arenaSize
  fresh : ∀ address step, storage.Covers address →
    Gaps.Free state.gaps address step → available = some step
  below : ∀ address, storage.Covers address → address < state.arenaEnd →
    ∃ step, Gaps.Free state.gaps address step
  noted : ∀ step, available = some step → ∃ offset size, storage = .arena offset size ∧
    Gaps.Free state.gaps offset step
  beyond : ∀ address, state.arenaEnd ≤ address → address < storage.stop → storage.Covers address
  lowest : ∀ offset size, storage = .arena offset size → 0 < size → ∀ lower < offset,
    ∃ address, (Storage.arena lower size).Covers address ∧ address < state.arenaEnd ∧
      ∀ step, ¬ Gaps.Free state.gaps address step

theorem Arranged.allocated_rom {now : Nat} {state : PlannerState} (arranged : state.Arranged now) :
    Allocated state .rom none state where
  entries := rfl
  remaining := rfl
  canonical := arranged.canonical
  free _ _ := (and_iff_left id).symm
  arenaEnd := (Nat.max_zero _).symm
  grows := Nat.le_refl _
  fresh _ _ covers := covers.elim
  below _ covers := covers.elim
  noted _ noted := nomatch noted
  beyond _ _ inside := absurd inside (Nat.not_lt_zero _)
  lowest _ _ isArena := nomatch isArena

theorem allocated_of_gap {now offset size : Nat} {state after : PlannerState} {gap : Gap}
    (arranged : state.Arranged now) (member : gap ∈ state.gaps) (atOffset : gap.offset = offset)
    (entries : after.entries = state.entries) (remaining : after.remaining = state.remaining)
    (canonical : Gaps.Canonical after.gaps)
    (free : ∀ address step, Gaps.Free after.gaps address step ↔
      Gaps.Free state.gaps address step ∧ ¬ (Storage.arena offset size).Covers address)
    (arenaEnd : after.arenaEnd = max state.arenaEnd (offset + size))
    (room : offset + size ≤ gap.stop ∨ gap.stop = state.arenaEnd)
    (smaller : ∀ other ∈ state.gaps, other.offset < offset → other.size < size) :
    Allocated state (.arena offset size) (some gap.freedAfter) after := by
  have inside := arranged.gaps_inside gap member
  have nonempty := arranged.canonical.positive gap member
  refine ⟨entries, remaining, canonical, free, arenaEnd, ?_, ?_, ?_, ?_, ?_, ?_⟩
  · unfold Gap.stop at inside
    simp only [Storage.arenaSize]
    omega
  · rintro address step covers ⟨other, isGap, covered, rfl⟩
    by_contra unlike
    have separate := arranged.canonical.apart_of_ne isGap member
      (fun same => unlike (congrArg (some ·.freedAfter) same.symm))
    have := arranged.gaps_inside other isGap
    simp only [Storage.Covers, Gap.Covers] at covers covered
    omega
  · intro address covers below
    refine ⟨gap.freedAfter, gap, member, ?_, rfl⟩
    simp only [Storage.Covers, Gap.Covers] at covers ⊢
    omega
  · rintro step same
    refine ⟨offset, size, rfl, gap, member, ?_, Option.some.inj same⟩
    unfold Gap.Covers Gap.stop
    omega
  · intro address beyond within
    unfold Gap.stop at inside
    simp only [Storage.stop, Storage.Covers] at within ⊢
    omega
  · intro start taken isArena positive lower below
    obtain ⟨rfl, rfl⟩ := Storage.arena.inj isArena
    unfold Gap.stop at inside
    refine arranged.canonical.exists_taken positive below (by omega) fun other isGap before => ?_
    refine ⟨smaller other isGap before, ?_⟩
    have unlike : other ≠ gap := by
      rintro rfl
      omega
    have := arranged.canonical.apart_of_ne isGap member unlike
    unfold Gap.stop at this ⊢
    omega

/-- A slot at the end of the arena takes nothing from the gaps. -/
theorem allocated_of_end {now size : Nat} {state after : PlannerState}
    (arranged : state.Arranged now) (entries : after.entries = state.entries)
    (remaining : after.remaining = state.remaining) (gaps : after.gaps = state.gaps)
    (arenaEnd : after.arenaEnd = max state.arenaEnd (state.arenaEnd + size))
    (smaller : ∀ gap ∈ state.gaps, gap.size < size ∧ gap.stop < state.arenaEnd) :
    Allocated state (.arena state.arenaEnd size) none after := by
  have beyond : ∀ address step, (Storage.arena state.arenaEnd size).Covers address →
      ¬ Gaps.Free state.gaps address step := by
    rintro address step covers ⟨other, isGap, covered, _⟩
    have := arranged.gaps_inside other isGap
    simp only [Storage.Covers, Gap.Covers] at covers covered
    omega
  refine ⟨entries, remaining, gaps ▸ arranged.canonical, ?_, arenaEnd, ?_, ?_, ?_, ?_, ?_, ?_⟩
  · intro address step
    rw [gaps]
    exact ⟨fun free => ⟨free, fun covers => beyond address step covers free⟩, And.left⟩
  · simp only [Storage.arenaSize]
    omega
  · intro address step covers free
    exact absurd free (beyond address step covers)
  · intro address covers below
    simp only [Storage.Covers] at covers
    omega
  · intro step noted
    cases noted
  · exact fun address past within => ⟨past, within⟩
  · intro start taken isArena positive lower below
    obtain ⟨rfl, rfl⟩ := Storage.arena.inj isArena
    exact arranged.canonical.exists_taken positive below (Nat.le_refl _)
      fun gap isGap _ => smaller gap isGap

/-- A request that no gap can hold is met at the end of the arena, from the last gap's start if
that gap ends there. -/
theorem allocate_of_noFit {options : ArenaOptions} {tensor : String} {size offset : Nat}
    {available : Option Nat} {last : Option (Gap × List Gap)} {state after : PlannerState}
    (noFit : Gaps.firstFit? size state.gaps = none)
    (isLast : Gaps.lastGap? state.arenaEnd state.gaps = last)
    (success : state.allocate options tensor size = .ok ((offset, available), after)) :
    offset = (last.map (·.1.offset)).getD state.arenaEnd ∧
      available = last.map (·.1.freedAfter) ∧ after.gaps = (last.map (·.2)).getD state.gaps ∧
      after.arenaEnd = max state.arenaEnd (offset + size) ∧ after.entries = state.entries ∧
      after.remaining = state.remaining := by
  unfold allocate at success
  simp only [noFit, isLast] at success
  cases last
  all_goals
    dsimp only at success
    split at success
    · cases success
    · rename_i required sized
      obtain ⟨rfl, _⟩ := size?_eq_some_iff.mp sized
      split at success
      · obtain ⟨found, rfl⟩ := Prod.mk.inj (Except.ok.inj success)
        obtain ⟨rfl, rfl⟩ := Prod.mk.inj found
        exact ⟨rfl, rfl, rfl, rfl, rfl, rfl⟩
      · split at success
        · cases success
        · obtain ⟨found, rfl⟩ := Prod.mk.inj (Except.ok.inj success)
          obtain ⟨rfl, rfl⟩ := Prod.mk.inj found
          exact ⟨rfl, rfl, rfl, rfl, rfl, rfl⟩

theorem allocate_eq_ok {options : ArenaOptions} {tensor : String} {size offset now : Nat}
    {available : Option Nat} {state after : PlannerState} (arranged : state.Arranged now)
    (success : state.allocate options tensor size = .ok ((offset, available), after)) :
    Allocated state (.arena offset size) available after := by
  cases fit : Gaps.firstFit? size state.gaps with
  | some taken =>
    obtain ⟨gap, gaps⟩ := taken
    simp only [allocate, fit] at success
    obtain ⟨found, rfl⟩ := Prod.mk.inj (Except.ok.inj success)
    obtain ⟨rfl, rfl⟩ := Prod.mk.inj found
    obtain ⟨member, fits, canonical, free⟩ := Gaps.firstFit?_eq_some arranged.canonical fit
    have inside := arranged.gaps_inside gap member
    unfold Gap.stop at inside
    refine allocated_of_gap arranged member rfl rfl rfl canonical free ?_ (.inl ?_)
      fun other isGap lower => Gaps.firstFit?_lower arranged.canonical fit isGap lower
    · dsimp only
      omega
    · unfold Gap.stop
      omega
  | none =>
    have smaller := Gaps.firstFit?_eq_none fit
    cases last : Gaps.lastGap? state.arenaEnd state.gaps with
    | some found =>
      obtain ⟨gap, rest⟩ := found
      obtain ⟨member, atEnd, rfl⟩ := Gaps.lastGap?_eq_some last
      obtain ⟨start, noted, gaps, arenaEnd, entries, remaining⟩ :=
        allocate_of_noFit fit last success
      simp only [Option.map_some, Option.getD_some] at start noted gaps
      subst start noted
      refine allocated_of_gap arranged member rfl entries remaining ?_ ?_ arenaEnd (.inr atEnd)
        fun other isGap _ => smaller other isGap
      · rw [gaps]
        exact arranged.canonical.erase _
      · intro address step
        rw [gaps, arranged.canonical.free_erase_iff member]
        refine and_congr_right fun free => not_congr ?_
        -- The addresses of the slot past the gap lie past the end of the arena.
        obtain ⟨other, isGap, covered, _⟩ := free
        have := arranged.gaps_inside other isGap
        have := smaller gap member
        simp only [Storage.Covers, Gap.Covers, Gap.stop] at *
        omega
    | none =>
      obtain ⟨start, noted, gaps, arenaEnd, entries, remaining⟩ :=
        allocate_of_noFit fit last success
      simp only [Option.map_none, Option.getD_none] at start noted gaps
      subst start noted
      exact allocated_of_end arranged entries remaining gaps arenaEnd fun gap isGap =>
        ⟨smaller gap isGap,
          Gaps.lastGap?_eq_none arranged.canonical arranged.gaps_inside last isGap⟩

/-! ### Placing -/

/-- The step that is noted is over. -/
theorem Allocated.noted_lt {now step : Nat} {storage : Storage} {available : Option Nat}
    {state after : PlannerState} (allocated : Allocated state storage available after)
    (arranged : state.Arranged now) (noted : available = some step) : step < now := by
  obtain ⟨_, _, _, gap, member, _, rfl⟩ := allocated.noted step noted
  exact arranged.earlier gap member

/-- Whoever had an address of the storage before has given it back. -/
theorem Allocated.given_back {now position address : Nat} {storage : Storage}
    {available : Option Nat} {state after : PlannerState} {other : PlanEntry}
    (allocated : Allocated state storage available after) (arranged : state.Arranged now)
    (held : state.Holds position other) (covers : storage.Covers address)
    (covered : other.storage.Covers address) :
    ∃ released noted, other.releasedAfter = some released ∧ available = some noted ∧
      released ≤ noted ∧ noted < now := by
  have below := Nat.lt_of_lt_of_le covered.lt_stop (arranged.inside position other held)
  obtain ⟨step, free⟩ := allocated.below address covers below
  have source := allocated.fresh address step covers free
  cases given : other.releasedAfter with
  | none => exact absurd free (arranged.held position other held given address step covered)
  | some last =>
    have before := arranged.released position other last held given address step covered free
    exact ⟨last, step, rfl, source, before, allocated.noted_lt arranged source⟩

/-- Every gap that is left is part of an old one. -/
theorem Allocated.gap_of_mem {storage : Storage} {available : Option Nat}
    {state after : PlannerState} (allocated : Allocated state storage available after) {gap : Gap}
    (member : gap ∈ after.gaps) :
    ∃ old ∈ state.gaps, gap.stop ≤ old.stop ∧ gap.freedAfter = old.freedAfter := by
  obtain ⟨⟨old, listed, covered, same⟩, _⟩ :=
    (allocated.free _ _).mp ⟨gap, member, allocated.canonical.covers_last member, rfl⟩
  unfold Gap.Covers at covered
  exact ⟨old, listed, by omega, same.symm⟩

/-- What an allocation does not take remains as it was. -/
theorem Allocated.complete {now address : Nat} {storage : Storage} {available : Option Nat}
    {state after : PlannerState} (allocated : Allocated state storage available after)
    (arranged : state.Arranged now) (within : address < after.arenaEnd)
    (outside : ¬ storage.Covers address) :
    (∃ step, Gaps.Free after.gaps address step) ∨
      ∃ position entry, state.Holds position entry ∧ entry.releasedAfter = none ∧
        entry.storage.Covers address := by
  rw [allocated.arenaEnd] at within
  have former : address < state.arenaEnd := by
    by_contra past
    exact outside (allocated.beyond address (by omega) (by omega))
  refine (arranged.complete address former).imp_left ?_
  rintro ⟨step, free⟩
  exact ⟨step, (allocated.free address step).mpr ⟨free, outside⟩⟩

/-- The arena ends with the new slot or with an old one. -/
theorem Allocated.reached {now : Nat} {storage : Storage} {available : Option Nat}
    {state after : PlannerState} (allocated : Allocated state storage available after)
    (arranged : state.Arranged now) :
    after.arenaEnd = 0 ∨ storage.stop = after.arenaEnd ∨
      ∃ position entry, state.Holds position entry ∧ entry.storage.stop = after.arenaEnd := by
  rw [allocated.arenaEnd]
  by_cases grown : state.arenaEnd ≤ storage.stop
  · exact .inr (.inl (Nat.max_eq_right grown).symm)
  · rw [Nat.max_eq_left (by omega)]
    exact arranged.reached.imp_right .inr

/-- A tensor is placed in the storage that was taken for it. -/
theorem Arranged.place {now position : Nat} {storage : Storage} {available : Option Nat}
    {state middle after : PlannerState} {entry : PlanEntry} (arranged : state.Arranged now)
    (allocated : Allocated state storage available middle)
    (unplaced : state.entries[position]? = some none)
    (gaps : after.gaps = middle.gaps) (arenaEnd : after.arenaEnd = middle.arenaEnd)
    (entries : after.entries = middle.entries.set position (some entry))
    (stored : entry.storage = storage) (fresh : entry.releasedAfter = none)
    (noted : entry.availableAfter = available)
    (started : now = 0 ∨ now < entry.interval.start) : after.Arranged now := by
  have written : after.entries = state.entries.set position (some entry) := by
    rw [entries, allocated.entries]
  have holds : ∀ i other, after.Holds i other ↔
      (i = position ∧ other = entry) ∨ (i ≠ position ∧ state.Holds i other) :=
    fun i other => holds_set_iff unplaced written
  have larger : state.arenaEnd ≤ after.arenaEnd := by
    rw [arenaEnd, allocated.arenaEnd]
    omega
  have slotInside : entry.storage.stop ≤ after.arenaEnd := by
    rw [arenaEnd, allocated.arenaEnd, stored]
    exact Nat.le_max_right _ _
  have former : ∀ i other, i ≠ position → state.Holds i other → ∀ address,
      entry.storage.Covers address → other.storage.Covers address → entry.Succeeds other := by
    intro i other _ held address covers covered
    obtain ⟨last, step, given, source, before, past⟩ :=
      allocated.given_back arranged held (stored ▸ covers) covered
    exact ⟨last, step, given, noted.trans source, before, by omega⟩
  have gaps_inside : ∀ gap ∈ after.gaps, gap.stop ≤ after.arenaEnd := by
    intro gap member
    have ⟨old, listed, before, _⟩ := allocated.gap_of_mem (gaps ▸ member)
    exact Nat.le_trans (Nat.le_trans before (arranged.gaps_inside old listed)) larger
  have earlier : ∀ gap ∈ after.gaps, gap.freedAfter < now := by
    intro gap member
    have ⟨old, listed, _, same⟩ := allocated.gap_of_mem (gaps ▸ member)
    exact same ▸ arranged.earlier old listed
  exact {
    canonical := gaps ▸ allocated.canonical
    gaps_inside := gaps_inside
    earlier := earlier
    inside := by
      intro i other held
      rcases (holds i other).mp held with ⟨rfl, rfl⟩ | ⟨_, held⟩
      · exact slotInside
      · exact Nat.le_trans (arranged.inside i other held) larger
    held := by
      intro i other held unreleased address step covers free
      rw [gaps] at free
      obtain ⟨free, outside⟩ := (allocated.free address step).mp free
      rcases (holds i other).mp held with ⟨rfl, rfl⟩ | ⟨_, held⟩
      · exact outside (stored ▸ covers)
      · exact arranged.held i other held unreleased address step covers free
    complete := by
      intro address within
      by_cases covered : entry.storage.Covers address
      · exact .inr ⟨position, entry, (holds position entry).mpr (.inl ⟨rfl, rfl⟩), fresh, covered⟩
      · rw [stored] at covered
        rw [gaps]
        refine (allocated.complete arranged (arenaEnd ▸ within) covered).imp_right ?_
        rintro ⟨i, other, held, kept, covers⟩
        exact ⟨i, other, held.of_set unplaced written, kept, covers⟩
    released := by
      intro i other last held given address step covers free
      rw [gaps] at free
      have free := ((allocated.free address step).mp free).1
      rcases (holds i other).mp held with ⟨rfl, rfl⟩ | ⟨_, held⟩
      · rw [fresh] at given
        cases given
      · exact arranged.released i other last held given address step covers free
    past := by
      intro i other last held given
      rcases (holds i other).mp held with ⟨rfl, rfl⟩ | ⟨_, held⟩
      · rw [fresh] at given
        cases given
      · exact arranged.past i other last held given
    apart := arranged.apart_set unplaced written former
    reached := by
      rw [arenaEnd]
      rcases allocated.reached arranged with empty | atEnd | ⟨i, other, held, atEnd⟩
      · exact .inl empty
      · exact .inr ⟨position, entry, (holds position entry).mpr (.inl ⟨rfl, rfl⟩), stored ▸ atEnd⟩
      · exact .inr ⟨i, other, held.of_set unplaced written, atEnd⟩
    taken := by
      have total := totalSize_set unplaced (some entry)
      have := arranged.taken
      have := allocated.grows
      rw [written, arenaEnd]
      simp only [takenBytes, Option.map_some, Option.getD_some, stored, Option.map_none,
        Option.getD_none] at total ⊢
      omega }

/-! ### Releasing -/

/-- There is nothing to release where no tensor has been placed. -/
theorem release_cases (state : PlannerState) (position step : Nat) :
    state.release position step = state ∨ ∃ entry, state.Holds position entry := by
  unfold release
  split
  · rename_i entry held
    exact .inr ⟨entry, held⟩
  · exact .inl rfl

/-- The state after the storage of a placed tensor has been given back. -/
theorem release_of_holds {position : Nat} {state : PlannerState} {entry : PlanEntry}
    (held : state.Holds position entry) (step : Nat) :
    (state.release position step).entries =
        state.entries.set position (some { entry with releasedAfter := some step }) ∧
      (state.release position step).arenaEnd = state.arenaEnd ∧
      (state.release position step).remaining = state.remaining ∧
      ((entry.storage = .rom ∧ (state.release position step).gaps = state.gaps) ∨
        ∃ offset size, entry.storage = .arena offset size ∧
          (state.release position step).gaps = Gaps.release ⟨offset, size, step⟩ state.gaps) := by
  unfold Holds at held
  unfold release
  rw [held]
  dsimp only
  cases storage : entry.storage with
  | rom => exact ⟨rfl, rfl, rfl, .inl ⟨rfl, rfl⟩⟩
  | arena offset size => exact ⟨rfl, rfl, rfl, .inr ⟨offset, size, rfl, rfl⟩⟩

/-- A release changes the entry of the tensor that is released. -/
theorem holds_release {position : Nat} {state : PlannerState} {entry : PlanEntry}
    (held : state.Holds position entry) (step i : Nat) (other : PlanEntry) :
    (state.release position step).Holds i other ↔
      (i = position ∧ other = { entry with releasedAfter := some step }) ∨
        (i ≠ position ∧ state.Holds i other) :=
  holds_set_iff held (release_of_holds held step).1

/-- The entries of one tensor before and after a release agree but for the release. -/
theorem Holds.exists_before_release {position i step : Nat} {state : PlannerState}
    {entry other : PlanEntry} (held : state.Holds position entry)
    (placed : (state.release position step).Holds i other) :
    ∃ former, state.Holds i former ∧ former.name = other.name ∧
      former.interval = other.interval ∧ former.storage = other.storage := by
  rcases (holds_release held step i other).mp placed with ⟨rfl, rfl⟩ | ⟨_, placed⟩
  · exact ⟨entry, held, rfl, rfl, rfl⟩
  · exact ⟨other, placed, rfl, rfl, rfl⟩

theorem Holds.exists_after_release {position i : Nat} {state : PlannerState}
    {entry other : PlanEntry} (held : state.Holds position entry) (step : Nat)
    (placed : state.Holds i other) :
    ∃ changed, (state.release position step).Holds i changed ∧ changed.name = other.name ∧
      changed.interval = other.interval ∧ changed.storage = other.storage := by
  by_cases same : i = position
  · subst same
    obtain rfl := Option.some.inj (Option.some.inj (placed.symm.trans held))
    exact ⟨_, (holds_release held step i _).mpr (.inl ⟨rfl, rfl⟩), rfl, rfl, rfl⟩
  · exact ⟨other, (holds_release held step i other).mpr (.inr ⟨same, placed⟩), rfl, rfl, rfl⟩

/-- A held slot lies between the gaps and is given back to them. -/
theorem Arranged.release_released {now position offset size : Nat} {state : PlannerState}
    {entry : PlanEntry} (arranged : state.Arranged now) (held : state.Holds position entry)
    (unreleased : entry.releasedAfter = none) (stored : entry.storage = .arena offset size)
    (step : Nat) :
    Gaps.Released ⟨offset, size, step⟩ state.gaps
      (Gaps.release ⟨offset, size, step⟩ state.gaps) := by
  apply Gaps.release_of_disjoint _ arranged.canonical
  intro address covers last
  apply arranged.held position entry held unreleased
  rw [stored]
  exact covers

/-- A release adds the addresses of a held slot to the gaps. -/
theorem Arranged.released_gaps {position step : Nat} {state : PlannerState}
    {entry : PlanEntry} (arranged : state.Arranged (step + 1)) (held : state.Holds position entry)
    (unreleased : entry.releasedAfter = none) :
    Gaps.Canonical (state.release position step).gaps ∧
      (∀ address last, Gaps.Free (state.release position step).gaps address last →
        (entry.storage.Covers address ∧ step ≤ last) ∨
          ∃ earlier, earlier ≤ last ∧ Gaps.Free state.gaps address earlier) ∧
      (∀ address, (entry.storage.Covers address ∨ ∃ last, Gaps.Free state.gaps address last) →
        ∃ last, Gaps.Free (state.release position step).gaps address last) ∧
      ∀ gap ∈ (state.release position step).gaps, gap.freedAfter < step + 1 := by
  obtain ⟨_, _, _, ⟨isRom, gaps⟩ | ⟨offset, size, storage, gaps⟩⟩ := release_of_holds held step
  · rw [gaps, isRom]
    exact ⟨arranged.canonical, fun address last free => .inr ⟨last, Nat.le_refl _, free⟩,
      fun address covered => covered.resolve_left id, arranged.earlier⟩
  · have unheld := arranged.held position entry held unreleased
    rw [storage] at unheld ⊢
    have released := arranged.release_released held unreleased storage step
    rw [gaps]
    refine ⟨released.canonical, released.free_of, ?_, fun gap member => ?_⟩
    · rintro address (covers | ⟨last, free⟩)
      · exact released.free_slot address covers
      · exact released.free_gaps address last free
    have := released.bounded step (Nat.le_refl _)
      (fun old listed => Nat.le_of_lt_succ (arranged.earlier old listed)) gap member
    omega

/-- A slot that shares an address with one that is still held was given back before. -/
theorem Arranged.succeeds {now position i address : Nat} {state : PlannerState}
    {entry other : PlanEntry} (arranged : state.Arranged now) (held : state.Holds position entry)
    (unreleased : entry.releasedAfter = none) (unlike : i ≠ position) (placed : state.Holds i other)
    (covers : entry.storage.Covers address) (covered : other.storage.Covers address) :
    entry.Succeeds other := by
  rcases arranged.apart position i entry other unlike.symm held placed address covers covered with
    before | ⟨_, _, given, _⟩
  · exact before
  · rw [unreleased] at given
    cases given

/-- A tensor that has been placed and not been released is released. -/
theorem Arranged.release {position step : Nat} {state : PlannerState} {entry : PlanEntry}
    (arranged : state.Arranged (step + 1)) (held : state.Holds position entry)
    (unreleased : entry.releasedAfter = none) :
    (state.release position step).Arranged (step + 1) := by
  obtain ⟨entries, arenaEnd, _, _⟩ := release_of_holds held step
  obtain ⟨canonical, free, returned, earlier⟩ := arranged.released_gaps held unreleased
  have holds := holds_release held step
  have gaps_inside : ∀ gap ∈ (state.release position step).gaps, gap.stop ≤ state.arenaEnd := by
    apply canonical.stop_le
    intro address last isFree
    rcases free address last isFree with ⟨covers, _⟩ | ⟨before, _, isFree⟩
    · exact Nat.lt_of_lt_of_le covers.lt_stop (arranged.inside position entry held)
    · exact Gaps.lt_of_free arranged.gaps_inside isFree
  exact {
    canonical := canonical
    gaps_inside := arenaEnd ▸ gaps_inside
    earlier := earlier
    inside := by
      intro i other placed
      obtain ⟨former, placed, _, _, stored⟩ := held.exists_before_release placed
      rw [arenaEnd, ← stored]
      exact arranged.inside i former placed
    held := by
      intro i other placed kept address last covers isFree
      rcases (holds i other).mp placed with ⟨rfl, rfl⟩ | ⟨unlike, placed⟩
      · cases kept
      · rcases free address last isFree with ⟨both, _⟩ | ⟨earlier, _, isFree⟩
        · obtain ⟨_, _, given, _⟩ := arranged.succeeds held unreleased unlike placed both covers
          rw [kept] at given
          cases given
        · exact arranged.held i other placed kept address earlier covers isFree
    complete := by
      intro address within
      rw [arenaEnd] at within
      rcases arranged.complete address within with isFree | ⟨i, other, placed, kept, covers⟩
      · exact .inl (returned address (.inr isFree))
      · by_cases same : i = position
        · subst same
          obtain rfl := Option.some.inj (Option.some.inj (placed.symm.trans held))
          exact .inl (returned address (.inl covers))
        · exact .inr ⟨i, other, (holds i other).mpr (.inr ⟨same, placed⟩), kept, covers⟩
    released := by
      intro i other given placed released address last covers isFree
      rcases (holds i other).mp placed with ⟨rfl, rfl⟩ | ⟨_, placed⟩
      · obtain rfl : step = given := Option.some.inj released
        rcases free address last isFree with ⟨_, later⟩ | ⟨earlier, _, isFree⟩
        · exact later
        · exact absurd isFree (arranged.held i entry held unreleased address earlier covers)
      · rcases free address last isFree with ⟨_, later⟩ | ⟨earlier, later, isFree⟩
        · have := arranged.past i other given placed released
          omega
        · have := arranged.released i other given placed released address earlier covers isFree
          omega
    past := by
      intro i other given placed released
      rcases (holds i other).mp placed with ⟨rfl, rfl⟩ | ⟨_, placed⟩
      · obtain rfl : step = given := Option.some.inj released
        exact Nat.lt_succ_self _
      · exact arranged.past i other given placed released
    apart := by
      apply arranged.apart_set held entries
      intro i other unlike placed address covers covered
      have former : entry.Succeeds other :=
        arranged.succeeds held unreleased unlike placed covers covered
      exact former
    reached := by
      rw [arenaEnd]
      refine arranged.reached.imp_right ?_
      rintro ⟨i, other, placed, atEnd⟩
      obtain ⟨changed, kept, _, _, stored⟩ := held.exists_after_release step placed
      exact ⟨i, changed, kept, stored ▸ atEnd⟩
    taken := by
      have total := totalSize_set held (some { entry with releasedAfter := some step })
      have := arranged.taken
      simp only [takenBytes, Option.map_some, Option.getD_some] at total
      rw [entries, arenaEnd]
      omega }

end PlannerState

end TensorArena
