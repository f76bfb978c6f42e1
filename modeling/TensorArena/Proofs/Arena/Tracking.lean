import TensorArena.Proofs.Arena.Lowest
import TensorArena.Proofs.Arena.Order
import TensorArena.Proofs.Arena.Origin
import TensorArena.Proofs.Results

/-!
# What the planner knows of a tensor

A tensor waits for its writer, then it is placed, and from there on its readers are counted. The
entry of a placed tensor repeats the lifetime; it notes a release once the lifetime is over.
-/

set_option autoImplicit false

namespace TensorArena

/-- The entry repeats what is known of a tensor when the steps before `clock` have run. -/
structure PlanEntry.Records (options : ArenaOptions) (tensor : Tensor) (lifetime : Lifetime)
    (clock : Nat) (entry : PlanEntry) : Prop where
  name : entry.name = lifetime.name
  role : entry.role = lifetime.role
  refcount : entry.refcount = lifetime.refcount
  interval : entry.interval = lifetime.interval
  constant : lifetime.role = .constant → entry.storage = .rom
  sized : lifetime.role ≠ .constant → ∃ offset size, entry.storage = .arena offset size ∧
    tensor.byteLength?.bind options.alignUp? = some size
  releasedAfter : entry.releasedAfter =
    if lifetime.interval.stop ≤ clock then some (lifetime.interval.stop - 1) else none

/-- The tensor at a position and its lifetime. -/
def Graph.Declares (graph : Graph) (lifetimes : Lifetimes) (position : Nat) (tensor : Tensor)
    (lifetime : Lifetime) : Prop :=
  graph.tensors[position]? = some tensor ∧ lifetimes.tensors[position]? = some lifetime

namespace Graph.Declares

variable {graph : Graph} {lifetimes : Lifetimes} {position : Nat} {tensor : Tensor}
  {lifetime : Lifetime}

theorem pair (declares : graph.Declares lifetimes position tensor lifetime)
    (exact : lifetimes.Exact graph) : lifetime.name = tensor.name ∧ lifetime.Exact graph := by
  obtain ⟨bound, rfl⟩ := List.getElem?_eq_some_iff.mp declares.1
  obtain ⟨other, rfl⟩ := List.getElem?_eq_some_iff.mp declares.2
  exact (List.forall₂_iff_get.mp exact.tensors).2 position bound other

theorem get? (declares : graph.Declares lifetimes position tensor lifetime)
    (exact : lifetimes.Exact graph) : lifetimes.get? tensor.name = some lifetime :=
  exact.get?_eq_some_iff.mpr ⟨List.mem_of_getElem? declares.2, (declares.pair exact).1⟩

theorem position_eq (declares : graph.Declares lifetimes position tensor lifetime)
    (exact : lifetimes.Exact graph) {other : Nat} {otherTensor : Tensor}
    {otherLifetime : Lifetime}
    (same : graph.Declares lifetimes other otherTensor otherLifetime)
    (named : otherLifetime.name = lifetime.name) : other = position :=
  index_eq_of_name_eq Lifetime.name exact.distinct_lifetimes same.2 declares.2 named

/-- A tensor with a slot that no operator writes is an input. -/
theorem role?_eq_input (declares : graph.Declares lifetimes position tensor lifetime)
    (exact : lifetimes.Exact graph) (boundary : lifetime.role ≠ .intermediate)
    (held : lifetime.role ≠ .constant) : graph.role? tensor.name = some .input := by
  obtain ⟨named, known⟩ := declares.pair exact
  rw [← named, known.role]
  cases role : lifetime.role with
  | input => rfl
  | constant => exact absurd role held
  | intermediate => exact absurd role boundary

end Graph.Declares

/-! ### Positions -/

namespace Graph

theorem exists_tensor_of_position? {graph : Graph} {name : String} {position : Nat}
    (found : graph.position? name = some position) :
    ∃ tensor, graph.tensors[position]? = some tensor ∧ tensor.name = name := by
  obtain ⟨⟨tensor, index⟩, chosen, rfl⟩ := Option.map_eq_some_iff.mp found
  have member := List.mem_reverse.mp (List.mem_of_find?_eq_some chosen)
  exact ⟨tensor, List.mem_zipIdx_iff_getElem?.mp member, by simpa using List.find?_some chosen⟩

theorem position?_eq_none_iff {graph : Graph} {name : String} :
    graph.position? name = none ↔ graph.tensor? name = none := by
  simp only [position?, tensor?, Option.map_eq_none_iff, List.find?_eq_none, List.mem_reverse,
    Prod.forall, List.mem_zipIdx_iff_getElem?]
  constructor
  · intro unlike tensor member
    obtain ⟨position, present⟩ := List.mem_iff_getElem?.mp member
    exact unlike tensor position present
  · intro unlike tensor position present
    exact unlike tensor (List.mem_of_getElem? present)

end Graph

namespace Lifetimes.Exact

variable {graph : Graph} {lifetimes : Lifetimes}

theorem declares_of_tensor (exact : lifetimes.Exact graph) {position : Nat} {tensor : Tensor}
    (found : graph.tensors[position]? = some tensor) :
    ∃ lifetime, graph.Declares lifetimes position tensor lifetime := by
  have bound := (List.getElem?_eq_some_iff.mp found).1
  rw [exact.tensors.length_eq] at bound
  exact ⟨_, found, List.getElem?_eq_getElem bound⟩

theorem declares_of_mem (exact : lifetimes.Exact graph) {lifetime : Lifetime}
    (member : lifetime ∈ lifetimes.tensors) :
    ∃ position tensor, graph.Declares lifetimes position tensor lifetime := by
  obtain ⟨position, bound, rfl⟩ := List.getElem_of_mem member
  have inside : position < graph.tensors.length := exact.tensors.length_eq ▸ bound
  exact ⟨position, _, List.getElem?_eq_getElem inside, List.getElem?_eq_getElem bound⟩

theorem declares_of_position? (exact : lifetimes.Exact graph) {name : String} {position : Nat}
    (found : graph.position? name = some position) :
    ∃ tensor lifetime, graph.Declares lifetimes position tensor lifetime ∧
      lifetime.name = name := by
  obtain ⟨tensor, present, named⟩ := Graph.exists_tensor_of_position? found
  obtain ⟨lifetime, declares⟩ := exact.declares_of_tensor present
  exact ⟨tensor, lifetime, declares, (declares.pair exact).1.trans named⟩

end Lifetimes.Exact

namespace PlannerState

/-- What is noted of a tensor: nothing while it waits, and then its entry. Either way its readers
from the clock on are counted. -/
def Tracks (options : ArenaOptions) (position : Nat) (tensor : Tensor) (lifetime : Lifetime)
    (state : PlannerState) : Option Nat → Prop
  | none =>
    state.entries[position]? = some none ∧
      state.remaining[position]? = some lifetime.consumers.length
  | some clock =>
    (∃ entry, state.Holds position entry ∧ entry.Records options tensor lifetime clock) ∧
      state.remaining[position]? = some (lifetime.readersFrom clock)

/-- The arena is in order before the releases of step `now`, no slot could have been taken at a
lower offset, the steps that are remembered are those of releases, and every tensor has reached its
stage. -/
structure Consistent (graph : Graph) (lifetimes : Lifetimes) (options : ArenaOptions) (now : Nat)
    (stage : Nat → Lifetime → Option Nat) (state : PlannerState) : Prop where
  arranged : state.Arranged now
  lowest : state.Lowest graph.AllocatedBefore
  traced : state.Traced
  length : state.entries.length = graph.tensors.length
  tracks : ∀ position tensor lifetime, graph.Declares lifetimes position tensor lifetime →
    state.Tracks options position tensor lifetime (stage position lifetime)

namespace Consistent

variable {graph : Graph} {lifetimes : Lifetimes} {options : ArenaOptions} {now : Nat}
  {stage : Nat → Lifetime → Option Nat} {state : PlannerState}

theorem later (consistent : state.Consistent graph lifetimes options now stage) {next : Nat}
    (later : now ≤ next) : state.Consistent graph lifetimes options next stage :=
  { consistent with arranged := consistent.arranged.later later }

theorem congr (consistent : state.Consistent graph lifetimes options now stage)
    {other : Nat → Lifetime → Option Nat}
    (same : ∀ position tensor lifetime, graph.Declares lifetimes position tensor lifetime →
      stage position lifetime = other position lifetime) :
    state.Consistent graph lifetimes options now other :=
  { consistent with
    tracks := fun position tensor lifetime declares =>
      same position tensor lifetime declares ▸
        consistent.tracks position tensor lifetime declares }

/-- Only the tensor at one position moves to another stage. -/
theorem update (consistent : state.Consistent graph lifetimes options now stage)
    {after : PlannerState} {position next : Nat} {tensor : Tensor} {lifetime : Lifetime}
    {reached : Option Nat} (declares : graph.Declares lifetimes position tensor lifetime)
    (arranged : after.Arranged next) (lowest : after.Lowest graph.AllocatedBefore)
    (traced : after.Traced) (length : after.entries.length = state.entries.length)
    (tracks : after.Tracks options position tensor lifetime reached)
    (entries : ∀ other, other ≠ position → after.entries[other]? = state.entries[other]?)
    (remaining : ∀ other, other ≠ position → after.remaining[other]? = state.remaining[other]?) :
    after.Consistent graph lifetimes options next
      fun other lifetime => if other = position then reached else stage other lifetime := by
  refine ⟨arranged, lowest, traced, length.trans consistent.length, ?_⟩
  intro other otherTensor otherLifetime otherDeclares
  by_cases same : other = position
  · subst same
    obtain rfl := Option.some.inj (declares.1.symm.trans otherDeclares.1)
    obtain rfl := Option.some.inj (declares.2.symm.trans otherDeclares.2)
    simpa using tracks
  · have unmoved := consistent.tracks other otherTensor otherLifetime otherDeclares
    simp only [same, ↓reduceIte]
    cases reached : stage other otherLifetime <;>
      simpa only [reached, Tracks, Holds, entries other same, remaining other same] using unmoved

end Consistent

/-! ### Placing -/

/-- The state in which a tensor has just been given its storage. -/
def noteEntry (position : Nat) (tensor : Tensor) (lifetime : Lifetime) (storage : Storage)
    (available : Option Nat) (state : PlannerState) : PlannerState :=
  { state with
    entries := state.entries.set position (some ⟨tensor.name, lifetime.role, storage,
      lifetime.refcount, lifetime.interval, available, none⟩) }

section Place

variable {lifetimes : Lifetimes} {tensor : Tensor} {lifetime : Lifetime}

theorem place_constant (found : lifetimes.get? tensor.name = some lifetime)
    (constant : lifetime.role = .constant) (options : ArenaOptions) (position : Nat)
    (state : PlannerState) :
    state.place lifetimes options position tensor =
      .ok (state.noteEntry position tensor lifetime .rom none) := by
  unfold place
  simp only [found, if_pos constant]
  rfl

theorem place_slot (found : lifetimes.get? tensor.name = some lifetime)
    (held : lifetime.role ≠ .constant) (options : ArenaOptions) (position : Nat)
    (state : PlannerState) :
    state.place lifetimes options position tensor =
      match tensor.byteLength?.bind options.alignUp? with
      | none => .error (.sizeOverflow tensor.name)
      | some size => state.allocate options tensor.name size >>= fun taken =>
        .ok (taken.2.noteEntry position tensor lifetime (.arena taken.1.1 size) taken.1.2) := by
  unfold place
  simp only [found, if_neg held]
  cases tensor.byteLength?.bind options.alignUp? with
  | none => rfl
  | some size =>
    dsimp only
    cases state.allocate options tensor.name size <;> rfl

/-- A constant gets no slot, and any other tensor one that is allocated for its rounded length. -/
theorem place_cases {options : ArenaOptions} {position : Nat} {state after : PlannerState}
    (success : state.place lifetimes options position tensor = .ok after) :
    ∃ lifetime, lifetimes.get? tensor.name = some lifetime ∧
      ((lifetime.role = .constant ∧ after = state.noteEntry position tensor lifetime .rom none) ∨
        lifetime.role ≠ .constant ∧ ∃ size offset available middle,
          tensor.byteLength?.bind options.alignUp? = some size ∧
          state.allocate options tensor.name size = .ok ((offset, available), middle) ∧
          after = middle.noteEntry position tensor lifetime (.arena offset size) available) := by
  cases found : lifetimes.get? tensor.name with
  | none =>
    unfold place at success
    rw [found] at success
    cases success
  | some lifetime =>
    refine ⟨lifetime, rfl, ?_⟩
    by_cases constant : lifetime.role = .constant
    · rw [place_constant found constant] at success
      exact .inl ⟨constant, (Except.ok.inj success).symm⟩
    · rw [place_slot found constant] at success
      split at success
      · cases success
      · rename_i size sized
        obtain ⟨⟨⟨offset, available⟩, middle⟩, taken, success⟩ := bind_eq_ok.mp success
        exact .inr ⟨constant, size, offset, available, middle, sized, taken,
          (Except.ok.inj success).symm⟩

/-- Placing takes storage as the role demands and notes it in a new entry. -/
theorem place_eq_ok {options : ArenaOptions} {now position : Nat} {state after : PlannerState}
    (arranged : state.Arranged now) (found : lifetimes.get? tensor.name = some lifetime)
    (success : state.place lifetimes options position tensor = .ok after) :
    ∃ storage available middle, Allocated state storage available middle ∧
      (lifetime.role = .constant → storage = .rom) ∧
      (lifetime.role ≠ .constant → ∃ offset size, storage = .arena offset size ∧
        tensor.byteLength?.bind options.alignUp? = some size) ∧
      after = middle.noteEntry position tensor lifetime storage available := by
  obtain ⟨_, isLifetime, outcome⟩ := place_cases success
  obtain rfl := Option.some.inj (found.symm.trans isLifetime)
  rcases outcome with ⟨constant, rfl⟩ |
    ⟨held, size, offset, available, middle, sized, taken, rfl⟩
  · exact ⟨.rom, none, state, arranged.allocated_rom, fun _ => rfl, absurd constant, rfl⟩
  · exact ⟨.arena offset size, available, middle, allocate_eq_ok arranged taken,
      fun constant => absurd constant held, fun _ => ⟨offset, size, rfl, sized⟩, rfl⟩

end Place

namespace Consistent

variable {graph : Graph} {lifetimes : Lifetimes} {options : ArenaOptions} {now position : Nat}
  {stage : Nat → Lifetime → Option Nat} {state after : PlannerState} {tensor : Tensor}
  {lifetime : Lifetime}

/-- An entry that holds a slot belongs to a tensor whose live interval is not over. -/
theorem declares_of_holds (exact : lifetimes.Exact graph)
    (consistent : state.Consistent graph lifetimes options now stage) {entry : PlanEntry}
    (held : state.Holds position entry) (unreleased : entry.releasedAfter = none) :
    ∃ tensor lifetime clock, graph.Declares lifetimes position tensor lifetime ∧
      stage position lifetime = some clock ∧ clock < lifetime.interval.stop ∧
      entry.name = lifetime.name ∧ entry.interval = lifetime.interval ∧
      (lifetime.role = .constant → entry.storage = .rom) := by
  have bound := (List.getElem?_eq_some_iff.mp held).1
  rw [consistent.length] at bound
  obtain ⟨lifetime, declares⟩ := exact.declares_of_tensor (List.getElem?_eq_getElem bound)
  have tracks := consistent.tracks position _ lifetime declares
  cases current : stage position lifetime with
  | none =>
    rw [current] at tracks
    cases tracks.1.symm.trans held
  | some clock =>
    rw [current] at tracks
    obtain ⟨⟨other, heldToo, records⟩, _⟩ := tracks
    obtain rfl := Option.some.inj (Option.some.inj (held.symm.trans heldToo))
    have unfinished : clock < lifetime.interval.stop := by
      by_contra finished
      have released := records.releasedAfter
      rw [unreleased, if_pos (by omega)] at released
      cases released
    exact ⟨_, lifetime, clock, declares, current, unfinished, records.name, records.interval,
      records.constant⟩

/-- A tensor is placed at the entry or by its writer, after those that were placed before it. -/
theorem place (exact : lifetimes.Exact graph)
    (consistent : state.Consistent graph lifetimes options now stage)
    (declares : graph.Declares lifetimes position tensor lifetime)
    (waiting : stage position lifetime = none)
    (started : now = 0 ∨ now < lifetime.interval.start)
    (earlier : ∀ other otherTensor otherLifetime clock,
      graph.Declares lifetimes other otherTensor otherLifetime →
      stage other otherLifetime = some clock → lifetime.interval.start ≤ clock + 1 ∧
        (otherLifetime.role ≠ .constant → lifetime.role ≠ .constant →
          graph.AllocatedBefore otherLifetime.name lifetime.name))
    (success : state.place lifetimes options position tensor = .ok after) :
    after.Consistent graph lifetimes options now
      fun other lifetime => if other = position then some now else stage other lifetime := by
  obtain ⟨named, known⟩ := declares.pair exact
  obtain ⟨storage, available, middle, allocated, constant, sized, rfl⟩ :=
    place_eq_ok consistent.arranged (declares.get? exact) success
  have tracks := consistent.tracks position tensor lifetime declares
  rw [waiting] at tracks
  obtain ⟨unplaced, remaining⟩ := tracks
  have bound := (List.getElem?_eq_some_iff.mp unplaced).1
  have unfinished : ¬ lifetime.interval.stop ≤ now := by
    have := known.stop_pos
    have := known.start_le_stop
    omega
  refine consistent.update declares ?_ ?_ ?_ ?_ ⟨⟨⟨tensor.name, lifetime.role, storage,
    lifetime.refcount, lifetime.interval, available, none⟩, ?_, ?_⟩, ?_⟩ ?_ ?_
  · exact consistent.arranged.place allocated unplaced rfl rfl rfl rfl rfl rfl started
  · refine consistent.lowest.place consistent.arranged allocated unplaced rfl rfl ?_
    intro isSlot other entry held unreleased stored
    obtain ⟨otherTensor, otherLifetime, clock, otherDeclares, current, unfinished, sameName,
      interval, isRom⟩ := consistent.declares_of_holds exact held unreleased
    obtain ⟨started, order⟩ := earlier other otherTensor otherLifetime clock otherDeclares current
    rw [sameName, ← named, interval]
    refine ⟨order (mt isRom stored) (mt constant isSlot), ?_⟩
    dsimp only
    omega
  · exact consistent.traced.place consistent.arranged allocated unplaced rfl rfl rfl rfl started
  · simp [noteEntry, allocated.entries]
  · unfold Holds noteEntry
    rw [allocated.entries]
    exact List.getElem?_set_self bound
  · exact ⟨named.symm, rfl, rfl, rfl, constant, sized, by simp [unfinished]⟩
  · unfold noteEntry
    rw [allocated.remaining, remaining, known.readersFrom_of_le_start (by omega)]
  · intro other unlike
    unfold noteEntry
    rw [allocated.entries, List.getElem?_set_ne (Ne.symm unlike)]
  · intro other unlike
    exact allocated.remaining ▸ rfl

/-! ### Counting and releasing -/

/-- The tensor of a step that is counted as done with it is released if nobody is left to use
it. -/
theorem settle (exact : lifetimes.Exact graph) {step : Nat} {remaining : List Nat}
    (consistent : state.Consistent graph lifetimes options (step + 1) stage)
    (declares : graph.Declares lifetimes position tensor lifetime)
    (current : stage position lifetime = some step)
    (started : lifetime.interval.start ≤ step + 1) (unfinished : step < lifetime.interval.stop)
    (inside : step < graph.operators.length)
    (counted : remaining[position]? = some (lifetime.readersFrom (step + 1)))
    (others : ∀ other, other ≠ position → remaining[other]? = state.remaining[other]?) :
    (PlannerState.releaseUnread graph step position lifetime.name
      { state with remaining }).Consistent graph lifetimes options (step + 1)
        fun other lifetime =>
          if other = position then some (step + 1) else stage other lifetime := by
  obtain ⟨_, known⟩ := declares.pair exact
  have tracks := consistent.tracks position tensor lifetime declares
  rw [current] at tracks
  obtain ⟨⟨entry, held, records⟩, _⟩ := tracks
  have unreleased : entry.releasedAfter = none := by
    rw [records.releasedAfter, if_neg (Nat.not_le.mpr unfinished)]
  have arranged : PlannerState.Arranged (step + 1) { state with remaining } :=
    consistent.arranged.of_eq rfl rfl rfl
  have lowest : PlannerState.Lowest graph.AllocatedBefore { state with remaining } :=
    consistent.lowest.of_entries rfl
  have traced : PlannerState.Traced { state with remaining } := consistent.traced.of_eq rfl rfl
  have done := known.stop_le_iff started inside
  rw [known.isOutput] at done
  unfold PlannerState.releaseUnread
  by_cases last : lifetime.interval.stop ≤ step + 1
  · obtain ⟨inner, unread⟩ := done.mp last
    rw [if_pos (by simp [counted, inner, unread])]
    have placed : PlannerState.Holds { state with remaining } position entry := held
    obtain ⟨entries, _, same, _⟩ := release_of_holds placed step
    refine consistent.update declares (arranged.release held unreleased)
      (lowest.release placed step) (traced.release arranged placed unreleased) ?_
      ⟨⟨{ entry with releasedAfter := some step }, ?_, ?_⟩, ?_⟩ ?_ ?_
    · rw [entries, List.length_set]
    · unfold PlannerState.Holds
      rw [entries]
      exact List.getElem?_set_self (List.getElem?_eq_some_iff.mp held).1
    · have : lifetime.interval.stop - 1 = step := by omega
      exact { records with releasedAfter := by simp [last, this] }
    · rw [same]
      exact counted
    · intro other unlike
      rw [entries, List.getElem?_set_ne (Ne.symm unlike)]
    · intro other unlike
      rw [same]
      exact others other unlike
  · rw [if_neg (by
      intro both
      simp only [counted, Bool.and_eq_true, decide_eq_true_eq, Option.some.injEq,
        Bool.not_eq_true'] at both
      exact last (done.mpr ⟨both.2, both.1⟩))]
    refine consistent.update declares arranged lowest traced rfl ⟨⟨entry, held, ?_⟩, counted⟩
      (fun _ _ => rfl) others
    exact { records with releasedAfter := by rw [unreleased, if_neg last] }

end Consistent

end PlannerState

end TensorArena
