import TensorArena.Proofs.Arena.Schedule
import TensorArena.Proofs.Lifetime.Recorded

/-!
# The layout of a plan

The walk of the planner ends with one entry for every tensor. Two entries that share an address
follow each other: the slot of the one was given back before the slot of the other was taken.
-/

set_option autoImplicit false

namespace TensorArena

/-- The plan has an entry for every tensor, and its slots are those of the planner's walk. -/
structure Plan.Fits (graph : Graph) (lifetimes : Lifetimes) (options : ArenaOptions)
    (plan : Plan) : Prop where
  length : plan.entries.length = graph.tensors.length
  records : ∀ position tensor lifetime, graph.Declares lifetimes position tensor lifetime →
    ∃ entry, plan.entries[position]? = some entry ∧
      entry.Records options tensor lifetime graph.operators.length
  apart : ∀ (i j : Nat) (left right : PlanEntry), i ≠ j → plan.entries[i]? = some left →
    plan.entries[j]? = some right → ∀ address, left.storage.Covers address →
      right.storage.Covers address → left.Succeeds right ∨ right.Succeeds left
  lowest : ∀ entry ∈ plan.entries, ∀ offset size, entry.storage = .arena offset size → 0 < size →
    ∀ lower < offset, ∃ other ∈ plan.entries,
      entry.Blocked graph.AllocatedBefore (.arena lower size) other
  inside : ∀ entry ∈ plan.entries, entry.storage.stop ≤ plan.arenaSize
  reached : plan.arenaSize = 0 ∨ ∃ entry ∈ plan.entries, entry.storage.stop = plan.arenaSize
  taken : plan.arenaSize ≤ totalSize (plan.entries.map fun entry => entry.storage.arenaSize)
  noted : ∀ entry ∈ plan.entries, ∀ step, entry.availableAfter = some step →
    step + 1 < entry.interval.start ∧ ∃ offset size, entry.storage = .arena offset size ∧
      ReturnedTo (· ∈ plan.entries) step offset

namespace Graph

theorem collectEntries_eq_ok {tensors : List Tensor} {entries : List (Option PlanEntry)}
    {collected : List PlanEntry} (length : entries.length = tensors.length)
    (success : collectEntries tensors entries = .ok collected) :
    entries = collected.map some := by
  induction tensors generalizing entries collected with
  | nil =>
    obtain rfl := List.eq_nil_of_length_eq_zero length
    obtain rfl := Except.ok.inj success
    rfl
  | cons tensor tensors ih =>
    cases entries with
    | nil => cases length
    | cons entry entries =>
      cases entry with
      | none => cases success
      | some entry =>
        unfold collectEntries at success
        obtain ⟨others, rest, success⟩ := bind_eq_ok.mp success
        obtain rfl := pure_eq_ok.mp success
        rw [ih (Nat.succ.inj length) rest, List.map_cons]

/-- The entries of a plan are those of the tensors that have been placed. -/
theorem collectEntries_holds {tensors : List Tensor} {state : PlannerState}
    {entries : List PlanEntry} (length : state.entries.length = tensors.length)
    (success : collectEntries tensors state.entries = .ok entries) (position : Nat)
    (entry : PlanEntry) : state.Holds position entry ↔ entries[position]? = some entry := by
  unfold PlannerState.Holds
  rw [collectEntries_eq_ok length success, List.getElem?_map]
  cases entries[position]? <;> simp

theorem plan_eq_ok {graph : Graph} {lifetimes : Lifetimes} {options : ArenaOptions} {plan : Plan}
    (exact : lifetimes.Exact graph) (success : graph.plan lifetimes options = .ok plan) :
    plan.Fits graph lifetimes options := by
  obtain ⟨initial, final, started, walked, arenaEnd, collected⟩ :=
    exists_run_of_plan_eq_ok exact success
  have walking := PlannerState.Consistent.of_moves exact started walked
  have whole := collectEntries_eq_ok walking.length collected
  have holds := collectEntries_holds walking.length collected
  refine ⟨?_, ?_, ?_, ?_, ?_, ?_, ?_, ?_⟩
  · simpa [whole] using walking.length
  · intro position tensor lifetime declares
    have tracks := walking.tracks position tensor lifetime declares
    have started := (declares.pair exact).2.start_le_length
    simp only [PlannerState.reached, started, ↓reduceIte] at tracks
    obtain ⟨⟨entry, held, records⟩, _⟩ := tracks
    exact ⟨entry, (holds position entry).mp held, records⟩
  · intro i j left right unlike isLeft isRight
    exact walking.arranged.apart i j left right unlike ((holds i left).mpr isLeft)
      ((holds j right).mpr isRight)
  · intro entry member offset size isArena positive lower below
    obtain ⟨position, found⟩ := List.mem_iff_getElem?.mp member
    obtain ⟨i, other, held, blocked⟩ := walking.lowest position entry
      ((holds position entry).mpr found) offset size isArena positive lower below
    exact ⟨other, List.mem_of_getElem? ((holds i other).mp held), blocked⟩
  · intro entry member
    obtain ⟨position, found⟩ := List.mem_iff_getElem?.mp member
    rw [← arenaEnd]
    exact walking.arranged.inside position entry ((holds position entry).mpr found)
  · rw [← arenaEnd]
    refine walking.arranged.reached.imp_right ?_
    rintro ⟨position, entry, held, atEnd⟩
    exact ⟨entry, List.mem_of_getElem? ((holds position entry).mp held), atEnd⟩
  · have taken := walking.arranged.taken
    rw [whole, List.map_map, arenaEnd] at taken
    exact taken
  · intro entry member step source
    obtain ⟨position, found⟩ := List.mem_iff_getElem?.mp member
    obtain ⟨before, offset, size, isArena, returned⟩ :=
      walking.traced.noted position entry step ((holds position entry).mpr found) source
    refine ⟨before, offset, size, isArena, returned.imp ?_ ?_⟩
    · rintro other ⟨i, held⟩ _
      exact List.mem_of_getElem? ((holds i other).mp held)
    · intro between away other listed
      obtain ⟨i, found⟩ := List.mem_iff_getElem?.mp listed
      exact away other ⟨i, (holds i other).mpr found⟩

end Graph

namespace Plan.Fits

variable {graph : Graph} {lifetimes : Lifetimes} {options : ArenaOptions} {plan : Plan}

/-- Every entry of the plan belongs to a tensor. -/
theorem declares_of_entry (fits : plan.Fits graph lifetimes options)
    (exact : lifetimes.Exact graph) {position : Nat} {entry : PlanEntry}
    (found : plan.entries[position]? = some entry) :
    ∃ tensor lifetime, graph.Declares lifetimes position tensor lifetime ∧
      entry.Records options tensor lifetime graph.operators.length := by
  have bound := (List.getElem?_eq_some_iff.mp found).1
  rw [fits.length] at bound
  obtain ⟨lifetime, declares⟩ := exact.declares_of_tensor (List.getElem?_eq_getElem bound)
  obtain ⟨other, isOther, records⟩ := fits.records _ _ _ declares
  obtain rfl := Option.some.inj (found.symm.trans isOther)
  exact ⟨_, lifetime, declares, records⟩

theorem lifetime_of_mem (fits : plan.Fits graph lifetimes options) (exact : lifetimes.Exact graph)
    {entry : PlanEntry} (member : entry ∈ plan.entries) :
    ∃ lifetime ∈ lifetimes.tensors, ∃ tensor,
      entry.Records options tensor lifetime graph.operators.length := by
  obtain ⟨position, found⟩ := List.mem_iff_getElem?.mp member
  obtain ⟨tensor, lifetime, declares, records⟩ := fits.declares_of_entry exact found
  exact ⟨lifetime, List.mem_of_getElem? declares.2, tensor, records⟩

/-- What the entries have in common with a list in the order of the tensors. -/
theorem map_entries_eq (fits : plan.Fits graph lifetimes options) (exact : lifetimes.Exact graph)
    {β : Type} {f : PlanEntry → β} {items : List β} (length : items.length = graph.tensors.length)
    (same : ∀ position tensor lifetime entry, graph.Declares lifetimes position tensor lifetime →
      entry.Records options tensor lifetime graph.operators.length →
      items[position]? = some (f entry)) :
    plan.entries.map f = items := by
  apply List.ext_getElem?
  intro position
  rw [List.getElem?_map]
  by_cases bound : position < graph.tensors.length
  · have ⟨lifetime, declares⟩ := exact.declares_of_tensor (List.getElem?_eq_getElem bound)
    have ⟨entry, found, records⟩ := fits.records _ _ _ declares
    rw [found, Option.map_some, same _ _ _ _ declares records]
  · rw [List.getElem?_eq_none (by rw [fits.length]; omega), List.getElem?_eq_none (by omega)]
    rfl

theorem names (fits : plan.Fits graph lifetimes options) (exact : lifetimes.Exact graph) :
    plan.entries.map PlanEntry.name = graph.tensors.map Tensor.name := by
  apply fits.map_entries_eq exact (List.length_map _)
  intro position tensor lifetime entry declares records
  rw [List.getElem?_map, declares.1, Option.map_some, records.name, (declares.pair exact).1]

theorem distinct (fits : plan.Fits graph lifetimes options) (exact : lifetimes.Exact graph) :
    (plan.entries.map PlanEntry.name).Nodup := fits.names exact ▸ exact.distinct

theorem entry?_eq_some_iff (fits : plan.Fits graph lifetimes options)
    (exact : lifetimes.Exact graph) {name : String} {entry : PlanEntry} :
    plan.entry? name = some entry ↔ entry ∈ plan.entries ∧ entry.name = name := by
  unfold Plan.entry?
  rw [find?_named_iff PlanEntry.name (by
    rw [List.map_reverse, List.nodup_reverse]
    exact fits.distinct exact), List.mem_reverse]

/-- The entry of an analysed tensor. -/
theorem entry?_of_mem (fits : plan.Fits graph lifetimes options) (exact : lifetimes.Exact graph)
    {lifetime : Lifetime} (member : lifetime ∈ lifetimes.tensors) :
    ∃ tensor entry, plan.entry? lifetime.name = some entry ∧
      entry.Records options tensor lifetime graph.operators.length := by
  obtain ⟨position, tensor, declares⟩ := exact.declares_of_mem member
  obtain ⟨entry, found, records⟩ := fits.records position tensor lifetime declares
  exact ⟨tensor, entry, (fits.entry?_eq_some_iff exact).mpr
    ⟨List.mem_of_getElem? found, records.name⟩, records⟩

theorem intervals (fits : plan.Fits graph lifetimes options) (exact : lifetimes.Exact graph) :
    plan.entries.map PlanEntry.interval = lifetimes.tensors.map Lifetime.interval := by
  apply fits.map_entries_eq exact ((List.length_map _).trans exact.tensors.length_eq.symm)
  intro position tensor lifetime entry declares records
  rw [List.getElem?_map, declares.2, Option.map_some, records.interval]

/-- A slot that is taken over has been given back before the live interval of the later tensor
starts. -/
theorem stop_lt_start (fits : plan.Fits graph lifetimes options) (exact : lifetimes.Exact graph)
    {later earlier : PlanEntry} (member : earlier ∈ plan.entries)
    (succeeds : later.Succeeds earlier) : earlier.interval.stop < later.interval.start := by
  obtain ⟨lifetime, _, tensor, records⟩ := fits.lifetime_of_mem exact member
  obtain ⟨released, available, given, _, before, started⟩ := succeeds
  rw [records.releasedAfter] at given
  rw [records.interval]
  split at given
  · have := Option.some.inj given
    omega
  · cases given

/-- Tensors whose live intervals overlap share no address. -/
theorem disjoint (fits : plan.Fits graph lifetimes options) (exact : lifetimes.Exact graph)
    {i j : Nat} {left right : PlanEntry} (unlike : i ≠ j) (isLeft : plan.entries[i]? = some left)
    (isRight : plan.entries[j]? = some right)
    (together : left.interval.overlaps right.interval = true) (address : Nat)
    (covers : left.storage.Covers address) : ¬ right.storage.Covers address := by
  intro covered
  simp only [Interval.overlaps, Bool.and_eq_true, decide_eq_true_eq] at together
  rcases fits.apart i j left right unlike isLeft isRight address covers covered with
    succeeds | succeeds
  · have := fits.stop_lt_start exact (List.mem_of_getElem? isRight) succeeds
    omega
  · have := fits.stop_lt_start exact (List.mem_of_getElem? isLeft) succeeds
    omega

end Plan.Fits

/-- The plan of a walk records the lifetimes. -/
theorem Plan.Fits.recorded {graph : Graph} {lifetimes : Lifetimes} {options : ArenaOptions}
    {plan : Plan} (fits : plan.Fits graph lifetimes options) (exact : lifetimes.Exact graph) :
    graph.Recorded lifetimes plan where
  exact := exact
  names := fits.distinct exact
  entry_of_mem lifetime member := by
    obtain ⟨tensor, entry, found, records⟩ := fits.entry?_of_mem exact member
    have listed := ((fits.entry?_eq_some_iff exact).mp found).1
    exact ⟨entry, listed, records.name, records.role, records.refcount, records.interval⟩
  lifetime_of_mem entry listed := by
    obtain ⟨lifetime, member, tensor, records⟩ := fits.lifetime_of_mem exact listed
    exact ⟨lifetime, member, records.name.symm⟩

/-- The lifetimes and the plan are those of the graph. -/
structure Graph.Planned (graph : Graph) (lifetimes : Lifetimes) (options : ArenaOptions)
    (plan : Plan) : Prop extends graph.Recorded lifetimes plan where
  fits : plan.Fits graph lifetimes options

namespace Graph.Planned

variable {graph : Graph} {lifetimes : Lifetimes} {options : ArenaOptions} {plan : Plan}

theorem of_eq_ok (analysed : graph.lifetimes = .ok lifetimes)
    (planned : graph.plan lifetimes options = .ok plan) :
    graph.Planned lifetimes options plan := by
  have exact := Graph.lifetimes_eq_ok analysed
  have fits := Graph.plan_eq_ok exact planned
  exact ⟨fits.recorded exact, fits⟩

/-- Two tensors that share an address follow each other: the earlier one is released before the
later one is placed, and the plan notes a release that is no earlier. -/
theorem follow (planned : graph.Planned lifetimes options plan) {left right : Lifetime}
    {leftEntry rightEntry : PlanEntry} (isLeft : plan.entry? left.name = some leftEntry)
    (isRight : plan.entry? right.name = some rightEntry) (unlike : left.name ≠ right.name)
    {address : Nat} (covers : leftEntry.storage.Covers address)
    (covered : rightEntry.storage.Covers address) :
    leftEntry.Succeeds rightEntry ∨ rightEntry.Succeeds leftEntry := by
  obtain ⟨listedLeft, namedLeft⟩ := (planned.fits.entry?_eq_some_iff planned.exact).mp isLeft
  obtain ⟨listedRight, namedRight⟩ := (planned.fits.entry?_eq_some_iff planned.exact).mp isRight
  obtain ⟨i, foundLeft⟩ := List.mem_iff_getElem?.mp listedLeft
  obtain ⟨j, foundRight⟩ := List.mem_iff_getElem?.mp listedRight
  refine planned.fits.apart i j leftEntry rightEntry ?_ foundLeft foundRight address covers covered
  rintro rfl
  obtain rfl := Option.some.inj (foundLeft.symm.trans foundRight)
  exact unlike (namedLeft.symm.trans namedRight)

/-- What it means for a tensor to take over the slot of another one. -/
theorem succeeds (planned : graph.Planned lifetimes options plan) {later earlier : Lifetime}
    (inLater : later ∈ lifetimes.tensors) (inEarlier : earlier ∈ lifetimes.tensors)
    {laterEntry earlierEntry : PlanEntry} (isLater : plan.entry? later.name = some laterEntry)
    (isEarlier : plan.entry? earlier.name = some earlierEntry)
    (succeeds : laterEntry.Succeeds earlierEntry) :
    ∃ available, laterEntry.availableAfter = some available ∧
      earlier.interval.stop ≤ available + 1 ∧ available + 1 < later.interval.start := by
  obtain ⟨_, foundLater, records⟩ := planned.fits.entry?_of_mem planned.exact inLater
  obtain ⟨_, earlierAgain, found, earlierRecords⟩ :=
    planned.fits.entry?_of_mem planned.exact inEarlier
  obtain ⟨rfl⟩ := isLater.symm.trans records.1
  obtain rfl := Option.some.inj (isEarlier.symm.trans found)
  obtain ⟨released, available, given, noted, before, started⟩ := succeeds
  rw [records.2.interval] at started
  rw [earlierRecords.releasedAfter] at given
  refine ⟨available, noted, ?_, started⟩
  split at given
  · have := Option.some.inj given
    omega
  · cases given

/-- Tensors that are live at a common position share no address. -/
theorem apart (planned : graph.Planned lifetimes options plan) {left right : Lifetime}
    (inLeft : left ∈ lifetimes.tensors) (inRight : right ∈ lifetimes.tensors)
    {leftEntry rightEntry : PlanEntry} (isLeft : plan.entry? left.name = some leftEntry)
    (isRight : plan.entry? right.name = some rightEntry) (unlike : left.name ≠ right.name)
    (position : Nat) (liveLeft : left.interval.contains position = true)
    (liveRight : right.interval.contains position = true) (address : Nat)
    (covers : leftEntry.storage.Covers address) : ¬ rightEntry.storage.Covers address := by
  intro covered
  simp only [Interval.contains, Bool.and_eq_true, decide_eq_true_eq] at liveLeft liveRight
  rcases planned.follow isLeft isRight unlike covers covered with succeeds | succeeds
  · obtain ⟨available, _, before, after⟩ :=
      planned.succeeds inLeft inRight isLeft isRight succeeds
    omega
  · obtain ⟨available, _, before, after⟩ :=
      planned.succeeds inRight inLeft isRight isLeft succeeds
    omega

/-- A slot that has been free since before `done` is apart from that of any tensor that was there
first and is needed after `done`. -/
theorem apart_of_available (planned : graph.Planned lifetimes options plan)
    {later earlier : Lifetime} (inLater : later ∈ lifetimes.tensors)
    (inEarlier : earlier ∈ lifetimes.tensors) {laterEntry earlierEntry : PlanEntry}
    (isLater : plan.entry? later.name = some laterEntry)
    (isEarlier : plan.entry? earlier.name = some earlierEntry) (unlike : later.name ≠ earlier.name)
    (order : earlier.interval.start ≤ later.interval.start) {done : Nat}
    (free : ∀ available, laterEntry.availableAfter = some available → available < done)
    (needed : done < earlier.interval.stop) (address : Nat)
    (covers : laterEntry.storage.Covers address) : ¬ earlierEntry.storage.Covers address := by
  intro covered
  rcases planned.follow isLater isEarlier unlike covers covered with succeeds | succeeds
  · obtain ⟨available, noted, before, _⟩ :=
      planned.succeeds inLater inEarlier isLater isEarlier succeeds
    have := free available noted
    omega
  · obtain ⟨available, _, before, after⟩ :=
      planned.succeeds inEarlier inLater isEarlier isLater succeeds
    have := (planned.known inLater).start_le_stop
    omega

end Graph.Planned

end TensorArena
