import TensorArena.Proofs.Arena.Arrangement

/-!
# Where gaps come from

A gap remembers a step, and an entry notes it when its slot is cut from the gap. At that step a slot
was given back that came to lie in one range without an owner with all addresses of the gap. The
slot need not have had an address of the gap itself: ranges that touch are joined.
-/

set_option autoImplicit false

namespace TensorArena

/-- The tensor does not have the address when the releases of a step are done: it has been given
back by then, or the tensor comes later. -/
def PlanEntry.AwayAfter (step address : Nat) (entry : PlanEntry) : Prop :=
  entry.storage.Covers address →
    (∃ released, entry.releasedAfter = some released ∧ released ≤ step) ∨
      step + 1 < entry.interval.start

/-- One of the tensors gave back a slot at the step. From that slot up to the address none of them
has an address when the releases of the step are done. -/
def ReturnedTo (present : PlanEntry → Prop) (step address : Nat) : Prop :=
  ∃ entry offset size, present entry ∧ entry.storage = .arena offset size ∧ 0 < size ∧
    entry.releasedAfter = some step ∧
    ∀ between, min offset address ≤ between → between < max (offset + size) (address + 1) →
      ∀ other, present other → other.AwayAfter step between

theorem ReturnedTo.imp {before after : PlanEntry → Prop} {step address : Nat}
    (returned : ReturnedTo before step address)
    (kept : ∀ entry, before entry → entry.releasedAfter = some step → after entry)
    (away : ∀ between, (∀ other, before other → other.AwayAfter step between) →
      ∀ other, after other → other.AwayAfter step between) :
    ReturnedTo after step address := by
  obtain ⟨entry, offset, size, present, stored, positive, released, clear⟩ := returned
  exact ⟨entry, offset, size, kept entry present released, stored, positive, released,
    fun between low high => away between (clear between low high)⟩

namespace PlannerState

/-- The entry is that of a tensor that has been placed. -/
def Has (state : PlannerState) (entry : PlanEntry) : Prop :=
  ∃ position, state.Holds position entry

end PlannerState

/-- What has been given back stays so when another slot is given back. -/
theorem ReturnedTo.release {state : PlannerState} {position former address : Nat}
    {entry : PlanEntry} (returned : ReturnedTo state.Has former address)
    (held : state.Holds position entry) (unreleased : entry.releasedAfter = none) (step : Nat) :
    ReturnedTo (state.release position step).Has former address := by
  have holds := PlannerState.holds_release held step
  refine returned.imp ?_ ?_
  · rintro other ⟨i, placed⟩ released
    refine ⟨i, (holds i other).mpr (.inr ⟨?_, placed⟩)⟩
    rintro rfl
    obtain rfl := Option.some.inj (Option.some.inj (placed.symm.trans held))
    cases unreleased.symm.trans released
  · rintro between away other ⟨i, placed⟩ covers
    rcases (holds i other).mp placed with ⟨rfl, rfl⟩ | ⟨_, placed⟩
    · rcases away entry ⟨i, held⟩ covers with ⟨released, given, _⟩ | later
      · cases unreleased.symm.trans given
      · exact .inr later
    · exact away other ⟨i, placed⟩ covers

namespace PlannerState

/-- The steps that gaps remember and entries note are those of releases next to them. -/
structure Traced (state : PlannerState) : Prop where
  gaps : ∀ address step, Gaps.Free state.gaps address step → ReturnedTo state.Has step address
  noted : ∀ position entry step, state.Holds position entry →
    entry.availableAfter = some step → step + 1 < entry.interval.start ∧
      ∃ offset size, entry.storage = .arena offset size ∧ ReturnedTo state.Has step offset

namespace Traced

variable {state after : PlannerState}

theorem of_eq (traced : state.Traced) (gaps : after.gaps = state.gaps)
    (entries : after.entries = state.entries) : after.Traced := by
  obtain ⟨_, _, _, _, _⟩ := after
  subst gaps entries
  exact ⟨traced.gaps, traced.noted⟩

/-- A tensor that is placed comes after the steps that are remembered. -/
theorem place {now position : Nat} {storage : Storage} {available : Option Nat}
    {middle : PlannerState} {entry : PlanEntry} (traced : state.Traced)
    (arranged : state.Arranged now) (allocated : Allocated state storage available middle)
    (unplaced : state.entries[position]? = some none) (gaps : after.gaps = middle.gaps)
    (entries : after.entries = middle.entries.set position (some entry))
    (stored : entry.storage = storage) (noted : entry.availableAfter = available)
    (started : now = 0 ∨ now < entry.interval.start) : after.Traced := by
  have written : after.entries = state.entries.set position (some entry) := by
    rw [entries, allocated.entries]
  have holds : ∀ i other, after.Holds i other ↔
      (i = position ∧ other = entry) ∨ (i ≠ position ∧ state.Holds i other) :=
    fun i other => holds_set_iff unplaced written
  have returned : ∀ {step address : Nat}, step < now → ReturnedTo state.Has step address →
      ReturnedTo after.Has step address := by
    intro step address past returned
    refine returned.imp ?_ ?_
    · rintro other ⟨i, held⟩ _
      exact ⟨i, held.of_set unplaced written⟩
    · rintro between away other ⟨i, held⟩
      rcases (holds i other).mp held with ⟨rfl, rfl⟩ | ⟨_, held⟩
      · exact fun _ => .inr (by omega)
      · exact away other ⟨i, held⟩
  have past : ∀ {address step : Nat}, Gaps.Free state.gaps address step → step < now := by
    rintro address step ⟨gap, member, _, rfl⟩
    exact arranged.earlier gap member
  refine ⟨fun address step free => ?_, fun i other step held source => ?_⟩
  · rw [gaps] at free
    have free := ((allocated.free address step).mp free).1
    exact returned (past free) (traced.gaps address step free)
  · rcases (holds i other).mp held with ⟨rfl, rfl⟩ | ⟨_, held⟩
    · obtain ⟨offset, size, isArena, free⟩ := allocated.noted step (noted.symm.trans source)
      have before := past free
      exact ⟨by omega, offset, size, stored.trans isArena,
        returned before (traced.gaps offset step free)⟩
    · obtain ⟨before, offset, size, isArena, origin⟩ := traced.noted i other step held source
      obtain ⟨entry, _, _, ⟨j, placed⟩, _, _, released, _⟩ := id origin
      exact ⟨before, offset, size, isArena, returned (arranged.past j entry step placed released)
        origin⟩

/-- A slot that is given back goes into a gap with all that it touches. -/
theorem release {position step : Nat} {entry : PlanEntry} (traced : state.Traced)
    (arranged : state.Arranged (step + 1)) (held : state.Holds position entry)
    (unreleased : entry.releasedAfter = none) : (state.release position step).Traced := by
  have holds := holds_release held step
  have after := arranged.release held unreleased
  have returned : ∀ {former address : Nat}, ReturnedTo state.Has former address →
      ReturnedTo (state.release position step).Has former address :=
    fun returned => returned.release held unreleased step
  refine ⟨fun address last free => ?_, fun i other last placed source => ?_⟩
  · obtain ⟨_, _, _, ⟨_, same⟩ | ⟨offset, size, storage, gaps⟩⟩ := release_of_holds held step
    · rw [same] at free
      exact returned (traced.gaps address last free)
    · have released := arranged.release_released held unreleased storage step
      rw [gaps] at free
      obtain ⟨gap, member, covers, rfl⟩ := id free
      rcases released.origin gap member with old | ⟨positive, later, whole⟩
      · exact returned (traced.gaps address _ ⟨gap, old, covers, rfl⟩)
      · -- No step that a gap remembers is later than this one.
        have now := after.earlier gap (gaps ▸ member)
        obtain rfl : gap.freedAfter = step := Nat.le_antisymm (by omega) later
        refine ⟨_, offset, size, ⟨position, (holds position _).mpr (.inl ⟨rfl, rfl⟩)⟩, storage,
          positive, rfl, fun between low high other => ?_⟩
        rintro ⟨i, placed⟩ covered
        have inside : gap.Covers between := by
          have first := whole offset
          have last := whole (offset + size - 1)
          unfold Gap.Covers Gap.stop at *
          dsimp only at first last positive
          omega
        cases given : other.releasedAfter with
        | none =>
          exact absurd ⟨gap, gaps ▸ member, inside, rfl⟩
            (after.held i other placed given between gap.freedAfter covered)
        | some former =>
          exact .inl ⟨former, rfl, Nat.le_of_lt_succ (after.past i other former placed given)⟩
  · rcases (holds i other).mp placed with ⟨rfl, rfl⟩ | ⟨_, placed⟩
    · obtain ⟨before, offset, size, isArena, origin⟩ := traced.noted i entry last held source
      exact ⟨before, offset, size, isArena, returned origin⟩
    · obtain ⟨before, offset, size, isArena, origin⟩ := traced.noted i other last placed source
      exact ⟨before, offset, size, isArena, returned origin⟩

end Traced

end PlannerState

end TensorArena
