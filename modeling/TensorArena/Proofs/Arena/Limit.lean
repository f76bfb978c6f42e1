import TensorArena.Proofs.Arena.Ownership
import TensorArena.Proofs.Arena.Walk

/-!
# The arena limit

A limit changes nothing about a plan that stays within it. The walk with a limit goes along with the
walk without one, up to the first tensor whose slot ends past the limit.
-/

set_option autoImplicit false

namespace TensorArena

namespace PlannerState

/-! ### What a walk leaves behind -/

/-- What has been placed stays where it is, and the arena does not shrink. -/
structure Extends (before after : PlannerState) : Prop where
  kept : ∀ position entry, before.Holds position entry →
    ∃ changed, after.Holds position changed ∧ changed.name = entry.name ∧
      changed.storage = entry.storage
  arenaEnd : before.arenaEnd ≤ after.arenaEnd

namespace Extends

variable {first second third state : PlannerState}

theorem refl (state : PlannerState) : state.Extends state :=
  ⟨fun _ entry held => ⟨entry, held, rfl, rfl⟩, Nat.le_refl _⟩

theorem trans (left : first.Extends second) (right : second.Extends third) :
    first.Extends third := by
  refine ⟨fun position entry held => ?_, Nat.le_trans left.arenaEnd right.arenaEnd⟩
  obtain ⟨middle, held, named, stored⟩ := left.kept position entry held
  obtain ⟨changed, held, renamed, restored⟩ := right.kept position middle held
  exact ⟨changed, held, renamed.trans named, restored.trans stored⟩

end Extends

/-- The two states have the same extent, and the slots of the one are in the other. -/
structure Settles (before after : PlannerState) : Prop extends Extends before after where
  extent : after.arenaEnd = before.arenaEnd

namespace Settles

variable {first second third state : PlannerState}

theorem refl (state : PlannerState) : state.Settles state := ⟨.refl state, rfl⟩

theorem trans (left : first.Settles second) (right : second.Settles third) :
    first.Settles third :=
  ⟨left.toExtends.trans right.toExtends, right.extent.trans left.extent⟩

theorem release (state : PlannerState) (position step : Nat) :
    state.Settles (state.release position step) := by
  rcases release_cases state position step with same | ⟨entry, held⟩
  · rw [same]
    exact .refl state
  · have extent := (release_of_holds held step).2.1
    refine ⟨⟨fun i other isOther => ?_, Nat.le_of_eq extent.symm⟩, extent⟩
    obtain ⟨changed, placed, named, _, stored⟩ := held.exists_after_release step isOther
    exact ⟨changed, placed, named, stored⟩

theorem countRead (position : Nat) (state : PlannerState) :
    state.Settles (state.countRead position) :=
  ⟨⟨fun _ entry held => ⟨entry, held, rfl, rfl⟩, Nat.le_refl _⟩, rfl⟩

theorem keeps (state : PlannerState) : Keeps state.Settles where
  countRead position settles := settles.trans (countRead position _)
  release position step settles := settles.trans (release _ position step)

end Settles

/-! ### Two walks together -/

/-- A tensor has a slot that ends past the limit, and those before it in the order of allocations
have slots that do not. The error names the tensor and the end of its slot. -/
def Blames (graph : Graph) (limit : Nat) (error : PlanError) (state : PlannerState) : Prop :=
  ∃ position entry offset size bytes live done rest,
    state.Holds position entry ∧ entry.storage = .arena offset size ∧ limit < offset + size ∧
    error = .arenaOverflow entry.name size (offset + size) limit bytes live ∧
    graph.allocationOrder = done ++ entry.name :: rest ∧
    ∀ name ∈ done, ∃ position entry, state.Holds position entry ∧ entry.name = name ∧
      entry.storage.stop ≤ limit

theorem Blames.extends {graph : Graph} {limit : Nat} {error : PlanError}
    {before after : PlannerState} (blames : before.Blames graph limit error)
    (more : before.Extends after) : after.Blames graph limit error := by
  obtain ⟨position, entry, offset, size, bytes, live, done, rest, held, stored, past, rfl, order,
    within⟩ := blames
  obtain ⟨changed, kept, named, same⟩ := more.kept position entry held
  refine ⟨position, changed, offset, size, bytes, live, done, rest, kept, same.trans stored, past,
    by rw [named], by rw [named]; exact order, ?_⟩
  intro name listed
  obtain ⟨i, other, isOther, isName, small⟩ := within name listed
  obtain ⟨moved, kept, renamed, same⟩ := more.kept i other isOther
  exact ⟨i, moved, kept, renamed.trans isName, same ▸ small⟩

/-- How a walk without a limit and one with it compare. They agree while the arena stays within the
limit; otherwise the one fails where the other, if it goes through, has an arena that is too
large. -/
structure Gated (graph : Graph) (limit : Nat) (state : PlannerState)
    (free limited : Except PlanError PlannerState) : Prop where
  more : ∀ after, free = .ok after → state.Extends after
  gate : state.arenaEnd ≤ limit →
    (limited = free ∧ ∀ after, free = .ok after → after.arenaEnd ≤ limit) ∨
      ∃ error, limited = .error error ∧
        ∀ after, free = .ok after → limit < after.arenaEnd ∧ after.Blames graph limit error

namespace Gated

variable {graph : Graph} {limit : Nat} {state : PlannerState}

theorem bind {free limited : Except PlanError PlannerState}
    {freeNext limitedNext : PlannerState → Except PlanError PlannerState}
    (first : Gated graph limit state free limited)
    (next : ∀ middle, free = .ok middle →
      Gated graph limit middle (freeNext middle) (limitedNext middle)) :
    Gated graph limit state (free >>= freeNext) (limited >>= limitedNext) where
  more after success := by
    obtain ⟨middle, reached, success⟩ := bind_eq_ok.mp success
    exact (first.more middle reached).trans ((next middle reached).more after success)
  gate within := by
    rcases first.gate within with ⟨rfl, small⟩ | ⟨error, rfl, blames⟩
    · cases limited with
      | error error => exact .inl ⟨rfl, nofun⟩
      | ok middle => exact (next middle rfl).gate (small middle rfl)
    · refine .inr ⟨error, rfl, fun after success => ?_⟩
      obtain ⟨middle, reached, success⟩ := bind_eq_ok.mp success
      have more := (next middle reached).more after success
      obtain ⟨past, blamed⟩ := blames middle reached
      exact ⟨Nat.lt_of_lt_of_le past more.arenaEnd, blamed.extends more⟩

/-- The limit does not matter where nothing is placed. -/
theorem of_settles {free : Except PlanError PlannerState}
    (settles : ∀ after, free = .ok after → state.Settles after) :
    Gated graph limit state free free where
  more after success := (settles after success).toExtends
  gate within := .inl ⟨rfl, fun after success => (settles after success).extent ▸ within⟩

theorem pure (graph : Graph) (limit : Nat) (state : PlannerState) :
    Gated graph limit state (.ok state) (.ok state) :=
  of_settles fun _ success => Except.ok.inj success ▸ .refl state

end Gated

/-! ### Allocating -/

/-- The limit is tested where the arena grows. -/
theorem allocate_gated (tensor : String) (size alignment : Nat) {limit : Nat}
    {state : PlannerState} (within : state.arenaEnd ≤ limit) :
    (state.allocate ⟨some limit, alignment⟩ tensor size =
        state.allocate ⟨none, alignment⟩ tensor size ∧
      ∀ slot after, state.allocate ⟨none, alignment⟩ tensor size = .ok (slot, after) →
        after.arenaEnd ≤ limit) ∨
      ∃ offset available after bytes live,
        state.allocate ⟨none, alignment⟩ tensor size = .ok ((offset, available), after) ∧
          limit < offset + size ∧ after.arenaEnd = offset + size ∧
          state.allocate ⟨some limit, alignment⟩ tensor size =
            .error (.arenaOverflow tensor size (offset + size) limit bytes live) := by
  unfold allocate
  cases Gaps.firstFit? size state.gaps with
  | some taken =>
    refine .inl ⟨rfl, fun slot after success => ?_⟩
    obtain ⟨_, rfl⟩ := Prod.mk.inj (Except.ok.inj success)
    exact within
  | none =>
    -- The slot starts with the last gap or at the end of the arena, whatever the limit is.
    cases Gaps.lastGap? state.arenaEnd state.gaps
    all_goals
      dsimp only
      split
      · exact .inl ⟨rfl, nofun⟩
      · rename_i required sized
        obtain ⟨rfl, _⟩ := size?_eq_some_iff.mp sized
        split
        · rename_i past
          exact .inr ⟨_, _, _, _, _, rfl, past, Nat.max_eq_right (by omega), rfl⟩
        · rename_i small
          refine .inl ⟨rfl, fun slot after success => ?_⟩
          obtain ⟨_, rfl⟩ := Prod.mk.inj (Except.ok.inj success)
          exact Nat.max_le.mpr ⟨within, Nat.le_of_not_lt small⟩

/-- Placing notes a new entry, and the arena may grow. -/
theorem place_extends {lifetimes : Lifetimes} {options : ArenaOptions} {now position : Nat}
    {tensor : Tensor} {lifetime : Lifetime} {state after : PlannerState}
    (arranged : state.Arranged now) (found : lifetimes.get? tensor.name = some lifetime)
    (unplaced : state.entries[position]? = some none)
    (success : state.place lifetimes options position tensor = .ok after) :
    state.Extends after := by
  obtain ⟨storage, available, middle, allocated, _, _, rfl⟩ := place_eq_ok arranged found success
  refine ⟨fun i entry held => ⟨entry, ?_, rfl, rfl⟩, ?_⟩
  · exact held.of_set unplaced (by rw [noteEntry, allocated.entries])
  · exact allocated.arenaEnd ▸ Nat.le_max_left _ _

/-- The tensors that get their slots before this one have been placed. -/
def Due (graph : Graph) (name : String) (state : PlannerState) : Prop :=
  ∃ done rest, graph.allocationOrder = done ++ name :: rest ∧
    ∀ earlier ∈ done, ∃ position entry, state.Holds position entry ∧ entry.name = earlier

theorem place_gated {graph : Graph} {lifetimes : Lifetimes} {now position : Nat} {tensor : Tensor}
    {lifetime : Lifetime} {state : PlannerState} (limit alignment : Nat)
    (arranged : state.Arranged now) (found : lifetimes.get? tensor.name = some lifetime)
    (unplaced : state.entries[position]? = some none)
    (due : lifetime.role ≠ .constant → state.Due graph tensor.name) :
    Gated graph limit state (state.place lifetimes ⟨none, alignment⟩ position tensor)
      (state.place lifetimes ⟨some limit, alignment⟩ position tensor) where
  more after success := place_extends arranged found unplaced success
  gate within := by
    by_cases constant : lifetime.role = .constant
    · rw [place_constant found constant, place_constant found constant]
      refine .inl ⟨rfl, fun after success => ?_⟩
      rw [← Except.ok.inj success]
      exact within
    · rw [place_slot found constant, place_slot found constant]
      have aligned : ArenaOptions.alignUp? ⟨some limit, alignment⟩ =
          ArenaOptions.alignUp? ⟨none, alignment⟩ := rfl
      rw [aligned]
      cases tensor.byteLength?.bind (ArenaOptions.alignUp? ⟨none, alignment⟩) with
      | none => exact .inl ⟨rfl, nofun⟩
      | some size =>
        dsimp only
        rcases allocate_gated tensor.name size alignment within with ⟨same, small⟩ |
          ⟨offset, available, middle, bytes, live, taken, past, extent, overflow⟩
        · rw [same]
          refine .inl ⟨rfl, fun after success => ?_⟩
          obtain ⟨⟨slot, middle⟩, taken, success⟩ := bind_eq_ok.mp success
          rw [← Except.ok.inj success]
          exact small slot middle taken
        · rw [overflow, taken, ok_bind]
          refine .inr ⟨_, rfl, fun after success => ?_⟩
          have entries := (allocate_eq_ok arranged taken).entries
          obtain ⟨done, rest, order, placed⟩ := due constant
          obtain rfl := Except.ok.inj success
          refine ⟨extent ▸ past, position, ⟨tensor.name, lifetime.role, .arena offset size,
            lifetime.refcount, lifetime.interval, available, none⟩, offset, size, bytes, live, done,
            rest, ?_, rfl, past, rfl, order, fun name listed => ?_⟩
          · exact (holds_set_iff unplaced (by rw [noteEntry, entries])).mpr (.inl ⟨rfl, rfl⟩)
          · obtain ⟨i, other, held, named⟩ := placed name listed
            exact ⟨i, other, held.of_set unplaced (by rw [noteEntry, entries]), named,
              Nat.le_trans (arranged.inside i other held) within⟩

end PlannerState

namespace Lifetimes.Exact

variable {graph : Graph} {lifetimes : Lifetimes}

/-- Only tensors outside the constants get slots. -/
theorem exists_of_mem_allocationOrder (exact : lifetimes.Exact graph) {name : String}
    (listed : name ∈ graph.allocationOrder) :
    ∃ lifetime ∈ lifetimes.tensors, lifetime.name = name ∧ lifetime.role ≠ .constant := by
  obtain ⟨role, known, held⟩ : ∃ role, graph.role? name = some role ∧ role ≠ .constant := by
    rcases List.mem_append.mp listed with input | output
    · obtain ⟨tensor, chosen, rfl⟩ := List.mem_map.mp input
      exact ⟨.input, by simpa using (List.mem_filter.mp chosen).2, by decide⟩
    · obtain ⟨operator, present, written⟩ := List.mem_flatMap.mp output
      obtain ⟨step, present⟩ := List.mem_iff_getElem?.mp present
      exact ⟨.intermediate, exact.writes step name ⟨operator, present, written⟩, by decide⟩
  obtain ⟨lifetime, member, rfl⟩ := exact.exists_of_role known
  refine ⟨lifetime, member, rfl, ?_⟩
  rw [Option.some.inj ((exact.exact_of_mem member).role.symm.trans known)]
  exact held

end Lifetimes.Exact

namespace PlannerState

variable {graph : Graph} {lifetimes : Lifetimes} {limit alignment : Nat} {state : PlannerState}

/-- A tensor that has reached a stage has been placed. -/
theorem Consistent.holds_of_stage {options : ArenaOptions} {now position clock : Nat}
    {stage : Nat → Lifetime → Option Nat} {tensor : Tensor} {lifetime : Lifetime}
    (consistent : state.Consistent graph lifetimes options now stage)
    (declares : graph.Declares lifetimes position tensor lifetime)
    (current : stage position lifetime = some clock) :
    ∃ position entry, state.Holds position entry ∧ entry.name = lifetime.name := by
  have tracks := consistent.tracks position tensor lifetime declares
  rw [current] at tracks
  obtain ⟨⟨entry, held, records⟩, _⟩ := tracks
  exact ⟨position, entry, held, records.name⟩

/-- Those that come before a tensor have been placed when its turn comes. -/
theorem Turn.due {options : ArenaOptions} {position : Nat} {tensor : Tensor} {lifetime : Lifetime}
    {stage : Nat → Lifetime → Option Nat}
    (turn : state.Turn graph lifetimes options position tensor lifetime stage)
    (exact : lifetimes.Exact graph) (isSlot : lifetime.role ≠ .constant) :
    state.Due graph tensor.name := by
  rw [← (turn.declares.pair exact).1]
  obtain ⟨done, rest, order⟩ := List.append_of_mem
    (exact.mem_allocationOrder (List.mem_of_getElem? turn.declares.2) isSlot)
  refine ⟨done, rest, order, fun earlier listed => ?_⟩
  obtain ⟨other, member, rfl, otherSlot⟩ := exact.exists_of_mem_allocationOrder
    (order ▸ List.mem_append_left _ listed)
  obtain ⟨index, otherTensor, declares⟩ := exact.declares_of_mem member
  have placed := (turn.earlier isSlot index otherTensor other declares otherSlot).mpr
    ((Graph.allocatedBefore_iff_mem exact.allocationOrder_nodup order).mpr listed)
  obtain ⟨clock, reached⟩ := Option.ne_none_iff_exists'.mp placed
  exact turn.consistent.holds_of_stage declares reached

/-! ### The whole walk -/

theorem Ready.gated (exact : lifetimes.Exact graph) {move : Move}
    (ready : state.Ready graph lifetimes ⟨none, alignment⟩ move) :
    Gated graph limit state (state.move graph lifetimes ⟨none, alignment⟩ move)
      (state.move graph lifetimes ⟨some limit, alignment⟩ move) := by
  have settles := Settles.keeps state
  cases move with
  | place position tensor =>
    obtain ⟨lifetime, stage, turn⟩ := ready
    exact place_gated limit alignment turn.consistent.arranged (turn.declares.get? exact)
      turn.unplaced (turn.due exact)
  | read step position name =>
    exact .of_settles fun _ moved => Except.ok.inj moved ▸
      settles.releaseUnread position name (settles.countRead position (.refl state))
  | drop step position name =>
    exact .of_settles fun _ moved => Except.ok.inj moved ▸
      settles.releaseUnread position name (.refl state)

theorem Runs.gated (exact : lifetimes.Exact graph) {moves : List Move} {now : Nat}
    {stage : Nat → Lifetime → Option Nat}
    (runs : state.Runs graph lifetimes ⟨none, alignment⟩ now stage moves) :
    Gated graph limit state
      (moves.foldlM (PlannerState.move graph lifetimes ⟨none, alignment⟩) state)
      (moves.foldlM (PlannerState.move graph lifetimes ⟨some limit, alignment⟩) state) := by
  induction moves generalizing state with
  | nil => exact .pure ..
  | cons move rest ih =>
    rw [List.foldlM_cons, List.foldlM_cons]
    exact (runs.1.gated exact).bind fun middle moved => ih (runs.2 middle moved)

end PlannerState

namespace Graph

variable {graph : Graph} {lifetimes : Lifetimes}

/-- Planning with a limit agrees with planning without one, unless the arena gets too large. -/
theorem plan_gated (exact : lifetimes.Exact graph) (limit alignment : Nat) :
    (graph.plan lifetimes ⟨some limit, alignment⟩ = graph.plan lifetimes ⟨none, alignment⟩ ∧
      ∀ plan, graph.plan lifetimes ⟨none, alignment⟩ = .ok plan → plan.arenaSize ≤ limit) ∨
      ∃ error, graph.plan lifetimes ⟨some limit, alignment⟩ = .error error ∧
        ∀ plan, graph.plan lifetimes ⟨none, alignment⟩ = .ok plan → limit < plan.arenaSize ∧
          ∃ final : PlannerState, final.Blames graph limit error ∧
            ∀ position entry, final.Holds position entry →
              plan.entries[position]? = some entry := by
  rw [plan_eq_planByMoves exact, plan_eq_planByMoves exact]
  unfold planByMoves
  cases started : graph.initialState lifetimes with
  | error error => exact .inl ⟨rfl, nofun⟩
  | ok initial =>
    have starting := PlannerState.Consistent.initialState ⟨none, alignment⟩ exact started
    have empty : initial.arenaEnd ≤ limit := by
      obtain ⟨_, _, rfl, _⟩ := initialState_eq_ok started
      exact Nat.zero_le _
    have walk : PlannerState.Gated graph limit initial _ _ :=
      (starting.moves_run exact).gated exact
    simp only [ok_bind]
    rcases walk.gate empty with ⟨same, small⟩ | ⟨error, failed, blames⟩
    · rw [same]
      refine .inl ⟨rfl, fun plan success => ?_⟩
      obtain ⟨final, walked, success⟩ := bind_eq_ok.mp success
      obtain ⟨entries, _, success⟩ := bind_eq_ok.mp success
      rw [← pure_eq_ok.mp success]
      exact small final walked
    · rw [failed]
      refine .inr ⟨error, rfl, fun plan success => ?_⟩
      obtain ⟨final, walked, success⟩ := bind_eq_ok.mp success
      obtain ⟨entries, collected, success⟩ := bind_eq_ok.mp success
      obtain rfl := pure_eq_ok.mp success
      obtain ⟨past, blamed⟩ := blames final walked
      have walking := PlannerState.Consistent.of_moves exact started walked
      exact ⟨past, final, blamed, fun position entry =>
        (collectEntries_holds walking.length collected position entry).mp⟩

/-- A limit on the arena is a gate and nothing else, for every alignment and every execution that
stops after the first `count` operators. The plans within the limit are those that there are without
it. If the plan without it is too large, the error names the first tensor in the order of
allocations whose slot ends past the limit, and requires the arena up to the end of that slot. -/
theorem plan_limited (graph : Graph) (count limit alignment : Nat) (lifetimes : Lifetimes)
    (analysed : (graph.truncate count).lifetimes = .ok lifetimes) :
    (∀ plan, (graph.truncate count).plan lifetimes ⟨some limit, alignment⟩ = .ok plan ↔
      (graph.truncate count).plan lifetimes ⟨none, alignment⟩ = .ok plan ∧
        plan.arenaSize ≤ limit) ∧
    ∀ plan, (graph.truncate count).plan lifetimes ⟨none, alignment⟩ = .ok plan →
      limit < plan.arenaSize → ∃ entry offset size bytes live,
        (graph.truncate count).plan lifetimes ⟨some limit, alignment⟩ =
          .error (.arenaOverflow entry.name size (offset + size) limit bytes live) ∧
        (graph.truncate count).allocationOrder.find? (fun name =>
          (plan.entry? name).any fun entry => limit < entry.storage.stop) = some entry.name ∧
        plan.entry? entry.name = some entry ∧ entry.storage = .arena offset size := by
  have exact := Graph.lifetimes_eq_ok analysed
  generalize graph.truncate count = graph at exact ⊢
  rcases plan_gated exact limit alignment with ⟨same, small⟩ | ⟨error, failed, blames⟩
  · rw [same]
    refine ⟨fun plan => ⟨fun success => ⟨success, small plan success⟩, And.left⟩,
      fun plan success large => ?_⟩
    exact absurd (small plan success) (Nat.not_le_of_lt large)
  · refine ⟨fun plan => ⟨fun success => ?_, fun ⟨success, within⟩ => ?_⟩, fun plan success _ => ?_⟩
    · cases failed.symm.trans success
    · exact absurd within (Nat.not_le_of_lt (blames plan success).1)
    · have fits := plan_eq_ok exact success
      obtain ⟨_, final, ⟨position, entry, offset, size, bytes, live, done, rest, held, stored, past,
        rfl, order, within⟩, placed⟩ := blames plan success
      have isEntry : ∀ {position entry}, final.Holds position entry →
          plan.entry? entry.name = some entry := fun held =>
        (fits.entry?_eq_some_iff exact).mpr ⟨List.mem_of_getElem? (placed _ _ held), rfl⟩
      refine ⟨entry, offset, size, bytes, live, failed, ?_, isEntry held, stored⟩
      refine List.find?_eq_some_iff_append.mpr ⟨?_, done, rest, order, fun name listed => ?_⟩
      · simpa [isEntry held, stored, Storage.stop] using past
      · obtain ⟨_, other, isOther, rfl, small⟩ := within name listed
        simpa [isEntry isOther] using small

/-- The arena of the relay has eight bytes, and one byte less is too little. -/
theorem relay_limited :
    ∃ lifetimes plan, (relay.truncate 3).lifetimes = .ok lifetimes ∧
      (relay.truncate 3).plan lifetimes ⟨none, 4⟩ = .ok plan ∧
      (relay.truncate 3).plan lifetimes ⟨some 8, 4⟩ = .ok plan ∧
      ∃ entry offset size bytes live, (relay.truncate 3).plan lifetimes ⟨some 7, 4⟩ =
          .error (.arenaOverflow entry.name size (offset + size) 7 bytes live) ∧
        (relay.truncate 3).allocationOrder.find? (fun name =>
          (plan.entry? name).any fun entry => 7 < entry.storage.stop) = some entry.name ∧
        plan.entry? entry.name = some entry ∧ entry.storage = .arena offset size :=
  ⟨_, _, rfl, rfl, ((plan_limited relay 3 8 4 _ rfl).1 _).mpr ⟨rfl, by decide⟩,
    (plan_limited relay 3 7 4 _ rfl).2 _ rfl (by decide)⟩

end Graph

end TensorArena
