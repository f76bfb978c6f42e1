import TensorArena.Proofs.Arena.Turns

/-!
# The planner's schedule

At the entry and at every step each move is made in its turn. Between two steps each tensor is where
its lifetime says.
-/

set_option autoImplicit false

namespace TensorArena

namespace PlannerState

/-- All moves are made in states of which this is known, and the last of them leads to such
stages. -/
abbrev Runs (graph : Graph) (lifetimes : Lifetimes) (options : ArenaOptions) (now : Nat)
    (stage : Nat → Lifetime → Option Nat) (moves : List Move) (state : PlannerState) : Prop :=
  Along (PlannerState.move graph lifetimes options) (PlannerState.Ready graph lifetimes options)
    (PlannerState.Consistent graph lifetimes options now stage) moves state

/-! ### The entry -/

theorem arranged_of_empty {state : PlannerState} (gaps : state.gaps = [])
    (arenaEnd : state.arenaEnd = 0)
    (unplaced : ∀ position entry, ¬ state.Holds position entry) : state.Arranged 0 where
  canonical := gaps ▸ Gaps.Canonical.nil
  gaps_inside gap member := by simp [gaps] at member
  earlier gap member := by simp [gaps] at member
  inside position entry held := absurd held (unplaced position entry)
  held position entry held := absurd held (unplaced position entry)
  complete address inside := absurd (arenaEnd ▸ inside) (Nat.not_lt_zero address)
  released position entry _ held := absurd held (unplaced position entry)
  past position entry _ held := absurd held (unplaced position entry)
  apart i _ left _ _ held := absurd held (unplaced i left)
  reached := .inl arenaEnd
  taken := arenaEnd ▸ Nat.zero_le _

namespace Consistent

variable {graph : Graph} {lifetimes : Lifetimes} {options : ArenaOptions} {position : Nat}
  {tensor : Tensor} {lifetime : Lifetime} {state after : PlannerState}

theorem initialState (options : ArenaOptions) (exact : lifetimes.Exact graph)
    (success : graph.initialState lifetimes = .ok state) :
    state.Consistent graph lifetimes options 0 fun _ _ => none := by
  unfold Graph.initialState at success
  obtain ⟨remaining, counted, success⟩ := bind_eq_ok.mp success
  obtain rfl := pure_eq_ok.mp success
  have waiting : ∀ (position : Nat) (entry : PlanEntry),
      (graph.tensors.map fun _ => (none : Option PlanEntry))[position]? ≠ some (some entry) := by
    intro position entry found
    obtain ⟨_, _, absurd⟩ := List.mem_map.mp (List.mem_of_getElem? found)
    cases absurd
  refine ⟨arranged_of_empty rfl rfl waiting, fun position entry held =>
    absurd held (waiting position entry), ⟨?_, fun position entry _ held =>
      absurd held (waiting position entry)⟩, by simp, ?_⟩
  · rintro address step ⟨gap, member, _⟩
    cases member
  intro position tensor lifetime declares
  obtain ⟨bound, rfl⟩ := List.getElem?_eq_some_iff.mp declares.1
  refine ⟨by simp [bound], ?_⟩
  have pairs := List.forall₂_iff_get.mp (forall₂_of_mapM_eq_ok counted)
  have inside : position < remaining.length := pairs.1 ▸ bound
  have count := pairs.2 position bound inside
  simp only [List.get_eq_getElem, declares.get? exact] at count
  exact (List.getElem?_eq_getElem inside).trans (congrArg some (Except.ok.inj count).symm)

/-- A tensor that is there from the beginning is placed in its turn. -/
theorem placeDeclared (exact : lifetimes.Exact graph)
    (declares : graph.Declares lifetimes position tensor lifetime)
    (boundary : lifetime.role ≠ .intermediate)
    (consistent : state.Consistent graph lifetimes options 0 (entering position))
    (success : state.place lifetimes options position tensor = .ok after) :
    after.Consistent graph lifetimes options 0 (entering (position + 1)) := by
  have moved := (consistent.turn_entry exact declares boundary).place exact success
  rw [(declares.pair exact).2.start_eq_zero_iff.mpr boundary] at moved
  refine moved.congr fun other otherTensor otherLifetime otherDeclares => ?_
  unfold entering
  by_cases same : other = position
  · subst same
    obtain rfl := Option.some.inj (declares.2.symm.trans otherDeclares.2)
    simp [boundary]
  · have : other < position ↔ other < position + 1 := by omega
    simp [same, this]

/-- An intermediate tensor waits for its writer. -/
theorem passOver {position : Nat}
    (consistent : state.Consistent graph lifetimes options 0 (entering position))
    {tensor : Tensor} {lifetime : Lifetime}
    (declares : graph.Declares lifetimes position tensor lifetime)
    (intermediate : lifetime.role = .intermediate) :
    state.Consistent graph lifetimes options 0 (entering (position + 1)) := by
  refine consistent.congr fun other otherTensor otherLifetime otherDeclares => ?_
  unfold entering
  by_cases same : other = position
  · subst same
    obtain rfl := Option.some.inj (declares.2.symm.trans otherDeclares.2)
    simp [intermediate]
  · have : other < position ↔ other < position + 1 := by omega
    simp [this]

theorem entering_zero (consistent : state.Consistent graph lifetimes options 0 fun _ _ => none) :
    state.Consistent graph lifetimes options 0 (entering 0) :=
  consistent.congr fun _ _ _ _ => by simp [entering]

/-- Once all tensors have had their turn, those are there whose live intervals start at the
entry. -/
theorem entering_length (exact : lifetimes.Exact graph) {position : Nat}
    (passed : graph.tensors.length ≤ position)
    (consistent : state.Consistent graph lifetimes options 0 (entering position)) :
    state.Consistent graph lifetimes options 0 (reached 0) := by
  refine consistent.congr fun other tensor lifetime declares => ?_
  have bound := (List.getElem?_eq_some_iff.mp declares.1).1
  have inside : other < position := Nat.lt_of_lt_of_le bound passed
  have entry := (declares.pair exact).2.start_eq_zero_iff
  simp only [entering, inside, true_and, reached, Nat.le_zero, entry]

theorem entryMoves_run (exact : lifetimes.Exact graph) {tensors : List Tensor} :
    ∀ {position : Nat} {state : PlannerState}, graph.tensors.drop position = tensors →
      state.Consistent graph lifetimes options 0 (entering position) →
      state.Runs graph lifetimes options 0 (reached 0) (graph.entryMoves position tensors) := by
  induction tensors with
  | nil =>
    exact fun rest consistent => consistent.entering_length exact (List.drop_eq_nil_iff.mp rest)
  | cons tensor others ih =>
    intro position state rest consistent
    obtain ⟨present, next⟩ := of_drop_eq_cons rest
    obtain ⟨lifetime, declares⟩ := exact.declares_of_tensor present
    rw [Graph.entryMoves_cons exact declares]
    split
    · rename_i intermediate
      exact ih next (consistent.passOver declares intermediate)
    · rename_i boundary
      refine ⟨⟨lifetime, _, consistent.turn_entry exact declares boundary⟩, fun after placed => ?_⟩
      exact ih next (consistent.placeDeclared exact declares boundary placed)

/-! ### The outputs of a step -/

variable {step : Nat} {operator : Operator}

theorem placeOutput (exact : lifetimes.Exact graph)
    (present : graph.operators[step]? = some operator) {done rest : List String}
    (whole : operator.outputs = done ++ lifetime.name :: rest)
    (consistent : state.Consistent graph lifetimes options step (placing step done))
    (declares : graph.Declares lifetimes position tensor lifetime)
    (success : state.place lifetimes options position tensor = .ok after) :
    after.Consistent graph lifetimes options step (placing step (done ++ [lifetime.name])) := by
  have moved := (consistent.turn_output exact present whole declares).place exact success
  rw [(declares.pair exact).2.start_of_writes ⟨operator, present, by simp [whole]⟩,
    Nat.add_sub_cancel] at moved
  refine moved.congr fun other otherTensor otherLifetime otherDeclares => ?_
  unfold placing
  by_cases same : other = position
  · subst same
    obtain rfl := Option.some.inj (declares.2.symm.trans otherDeclares.2)
    simp
  · have unlike : otherLifetime.name ≠ lifetime.name :=
      fun named => same (declares.position_eq exact otherDeclares named)
    simp [same, unlike]

theorem placing_nil (consistent : state.Consistent graph lifetimes options step (reached step)) :
    state.Consistent graph lifetimes options step (placing step []) :=
  consistent.congr fun _ _ _ _ => by simp [reached, placing]

/-- When all outputs have been placed, the step is done with none of its tensors. -/
theorem placing_outputs (exact : lifetimes.Exact graph)
    (present : graph.operators[step]? = some operator)
    (consistent : state.Consistent graph lifetimes options step (placing step operator.outputs)) :
    state.Consistent graph lifetimes options (step + 1) (settled step []) := by
  refine (consistent.later (Nat.le_succ step)).congr fun position tensor lifetime declares => ?_
  have started := (declares.pair exact).2.started_iff present
  simp [placing, settled, started]

theorem placeMoves_run (exact : lifetimes.Exact graph)
    (present : graph.operators[step]? = some operator) {names : List String} :
    ∀ {done : List String} {state : PlannerState}, operator.outputs = done ++ names →
      state.Consistent graph lifetimes options step (placing step done) →
      state.Runs graph lifetimes options (step + 1) (settled step []) (graph.placeMoves names) := by
  induction names with
  | nil =>
    intro done state whole consistent
    rw [List.append_nil] at whole
    rw [← whole] at consistent
    exact consistent.placing_outputs exact present
  | cons name rest ih =>
    intro done state whole consistent
    have writes : graph.Writes step name := ⟨operator, present, by simp [whole]⟩
    obtain ⟨position, tensor, lifetime, found, declares, rfl⟩ :=
      Graph.exists_position? exact (exact.exists_of_writes writes)
    rw [Graph.placeMoves_cons found declares.1]
    refine ⟨⟨lifetime, _, consistent.turn_output exact present whole declares⟩,
      fun after placed => ?_⟩
    exact ih (by simp [whole]) (consistent.placeOutput exact present whole declares placed)

/-! ### The inputs of a step -/

/-- Settling a tensor makes it one of those that the step is done with. -/
theorem settled_congr (exact : lifetimes.Exact graph) {done : List String} {position : Nat}
    {tensor : Tensor} {lifetime : Lifetime}
    (declares : graph.Declares lifetimes position tensor lifetime)
    (consistent : state.Consistent graph lifetimes options (step + 1) fun other lifetime =>
      if other = position then some (step + 1) else settled step done other lifetime) :
    state.Consistent graph lifetimes options (step + 1)
      (settled step (done ++ [lifetime.name])) := by
  refine consistent.congr fun other otherTensor otherLifetime otherDeclares => ?_
  by_cases same : other = position
  · subst same
    obtain rfl := Option.some.inj (declares.2.symm.trans otherDeclares.2)
    simp [settled]
  · have unlike : otherLifetime.name ≠ lifetime.name :=
      fun named => same (declares.position_eq exact otherDeclares named)
    simp [settled, same, unlike]

theorem countRead (exact : lifetimes.Exact graph) {done : List String}
    (consistent : state.Consistent graph lifetimes options (step + 1) (settled step done))
    (declares : graph.Declares lifetimes position tensor lifetime)
    (reads : graph.Reads step lifetime.name) (fresh : lifetime.name ∉ done) :
    ((state.countRead position).releaseUnread graph step position lifetime.name).Consistent graph
      lifetimes options (step + 1) (settled step (done ++ [lifetime.name])) := by
  have inUse := consistent.inUse_input exact declares reads fresh
  have known := (declares.pair exact).2
  have tracks := consistent.tracks position tensor lifetime declares
  rw [inUse.current] at tracks
  have counted := tracks.2
  have fewer := Lifetime.readersFrom_of_mem known.ascending ((known.consumers step).mpr reads)
  refine settled_congr exact declares (consistent.settle exact declares inUse.current
    inUse.started inUse.unfinished reads.lt_length ?_ ?_)
  · simp [counted, fewer]
  · intro other unlike
    rw [List.getElem?_modify]
    simp [Ne.symm unlike]

/-- A tensor that is counted for the first time joins those that have been seen. -/
theorem seen_cons (exact : lifetimes.Exact graph) {seen : List Nat} {done : List String}
    {position : Nat} {tensor : Tensor} {lifetime : Lifetime}
    (declares : graph.Declares lifetimes position tensor lifetime)
    (counted : ∀ position tensor lifetime, graph.Declares lifetimes position tensor lifetime →
      (position ∈ seen ↔ lifetime.name ∈ done)) :
    ∀ other otherTensor otherLifetime, graph.Declares lifetimes other otherTensor otherLifetime →
      (other ∈ position :: seen ↔ otherLifetime.name ∈ done ++ [lifetime.name]) := by
  intro other otherTensor otherLifetime otherDeclares
  rw [List.mem_cons, List.mem_append, List.mem_singleton,
    counted other otherTensor otherLifetime otherDeclares, or_comm]
  refine or_congr_right ⟨?_, declares.position_eq exact otherDeclares⟩
  rintro rfl
  rw [Option.some.inj (declares.2.symm.trans otherDeclares.2)]

/-- An input that is listed again changes nothing. -/
theorem settled_again {names done : List String} {name : String} (again : name ∈ done)
    (consistent : state.Consistent graph lifetimes options (step + 1)
      (settled step (done ++ names))) :
    state.Consistent graph lifetimes options (step + 1) (settled step (done ++ name :: names)) := by
  refine consistent.congr fun _ _ other _ => ?_
  by_cases same : other.name = name <;> simp [settled, same, again]

/-- Every input is counted once, however often the step lists it. -/
theorem readMoves_run (exact : lifetimes.Exact graph) {names : List String} :
    ∀ {seen : List Nat} {done : List String} {state : PlannerState},
      state.Consistent graph lifetimes options (step + 1) (settled step done) →
      (∀ name ∈ names, graph.Reads step name) →
      (∀ position tensor lifetime, graph.Declares lifetimes position tensor lifetime →
        (position ∈ seen ↔ lifetime.name ∈ done)) →
      state.Runs graph lifetimes options (step + 1) (settled step (done ++ names))
        (graph.readMoves step seen names) := by
  induction names with
  | nil =>
    intro seen done state consistent _ _
    rw [List.append_nil]
    exact consistent
  | cons name rest ih =>
    intro seen done state consistent reads counted
    obtain ⟨read, others⟩ := List.forall_mem_cons.mp reads
    obtain ⟨position, tensor, lifetime, found, declares, rfl⟩ :=
      Graph.exists_position? exact (exact.exists_of_reads read)
    have listed := counted position tensor lifetime declares
    unfold Graph.readMoves
    simp only [found]
    split
    · rename_i repeated
      have again : lifetime.name ∈ done := listed.mp (by simpa using repeated)
      exact (ih consistent others counted).imp fun _ finished => settled_again again finished
    · rename_i fresh
      have unread : lifetime.name ∉ done := fun member => fresh (by simpa using listed.mpr member)
      refine ⟨⟨tensor, lifetime, _, consistent.inUse_input exact declares read unread⟩,
        fun after moved => ?_⟩
      obtain rfl := Except.ok.inj moved
      rw [List.append_cons]
      exact ih (consistent.countRead exact declares read unread) others
        (seen_cons exact declares counted)

/-! ### Outputs without readers -/

theorem dropOutput (exact : lifetimes.Exact graph) {done : List String}
    (consistent : state.Consistent graph lifetimes options (step + 1) (settled step done))
    (declares : graph.Declares lifetimes position tensor lifetime)
    (writes : graph.Writes step lifetime.name) (fresh : lifetime.name ∉ done) :
    (state.releaseUnread graph step position lifetime.name).Consistent graph lifetimes options
      (step + 1) (settled step (done ++ [lifetime.name])) := by
  have inUse := consistent.inUse_output exact declares writes fresh
  have known := (declares.pair exact).2
  have unread : step ∉ lifetime.consumers :=
    fun member => known.not_reads_of_writes writes ((known.consumers step).mp member)
  have tracks := consistent.tracks position tensor lifetime declares
  rw [inUse.current] at tracks
  refine settled_congr exact declares (consistent.settle exact declares inUse.current
    inUse.started inUse.unfinished writes.lt_length ?_ fun _ _ => rfl)
  rw [lifetime.readersFrom_succ_of_not_mem unread]
  exact tracks.2

theorem dropMoves_run (exact : lifetimes.Exact graph) {names : List String} :
    ∀ {done : List String} {state : PlannerState},
      state.Consistent graph lifetimes options (step + 1) (settled step done) →
      (∀ name ∈ names, graph.Writes step name) → names.Nodup → (∀ name ∈ names, name ∉ done) →
      state.Runs graph lifetimes options (step + 1) (settled step (done ++ names))
        (graph.dropMoves step names) := by
  induction names with
  | nil =>
    intro done state consistent _ _ _
    rw [List.append_nil]
    exact consistent
  | cons name rest ih =>
    intro done state consistent writes distinct fresh
    obtain ⟨written, others⟩ := List.forall_mem_cons.mp writes
    obtain ⟨position, tensor, lifetime, found, declares, rfl⟩ :=
      Graph.exists_position? exact (exact.exists_of_writes written)
    obtain ⟨unlike, distinct⟩ := List.nodup_cons.mp distinct
    have new := fresh _ List.mem_cons_self
    rw [Graph.dropMoves_cons found]
    refine ⟨⟨tensor, lifetime, _, consistent.inUse_output exact declares written new⟩,
      fun after moved => ?_⟩
    obtain rfl := Except.ok.inj moved
    rw [List.append_cons]
    exact ih (consistent.dropOutput exact declares written new) others distinct
      (fresh_append unlike fresh)

/-! ### All steps -/

/-- When a step is done with its tensors, the next one begins. -/
theorem reached_next (exact : lifetimes.Exact graph)
    (present : graph.operators[step]? = some operator)
    (consistent : state.Consistent graph lifetimes options (step + 1)
      (settled step (operator.inputs ++ operator.outputs))) :
    state.Consistent graph lifetimes options (step + 1) (reached (step + 1)) := by
  refine ⟨consistent.arranged, consistent.lowest, consistent.traced, consistent.length, ?_⟩
  intro position tensor lifetime declares
  have known := (declares.pair exact).2
  have tracks := consistent.tracks position tensor lifetime declares
  unfold settled at tracks
  unfold reached
  split at tracks
  · rename_i listed
    have started : lifetime.interval.start ≤ step + 1 := by
      rcases List.mem_append.mp listed with member | member
      · exact Nat.le_succ_of_le (known.start_le_of_reads ⟨operator, present, member⟩)
      · exact Nat.le_of_eq (known.start_of_writes ⟨operator, present, member⟩)
    rw [if_pos started]
    exact tracks
  · rename_i unlisted
    split at tracks
    · rename_i started
      rw [if_pos started]
      rw [List.mem_append, not_or, ← Graph.reads_iff present, ← Graph.writes_iff present]
        at unlisted
      obtain ⟨unread, unwritten⟩ := unlisted
      have inside := (List.getElem?_eq_some_iff.mp present).1
      have same := lifetime.readersFrom_succ_of_not_mem
        (fun member => unread ((known.consumers step).mp member))
      have expired := known.stop_le_succ_iff inside unread unwritten
      obtain ⟨⟨entry, held, records⟩, remaining⟩ := tracks
      refine ⟨⟨entry, held, ?_⟩, by rw [same]; exact remaining⟩
      exact { records with releasedAfter := by simp [records.releasedAfter, expired] }
    · rename_i early
      rw [if_neg early]
      exact tracks

theorem stepMoves_run (exact : lifetimes.Exact graph)
    (present : graph.operators[step]? = some operator)
    (consistent : state.Consistent graph lifetimes options step (reached step)) :
    state.Runs graph lifetimes options (step + 1) (reached (step + 1))
      (graph.stepMoves step operator) := by
  have reads : ∀ name ∈ operator.inputs, graph.Reads step name :=
    fun _ member => ⟨operator, present, member⟩
  have writes : ∀ name ∈ operator.outputs, graph.Writes step name :=
    fun _ member => ⟨operator, present, member⟩
  refine (placeMoves_run exact present rfl consistent.placing_nil).append fun placed placing => ?_
  refine (placing.readMoves_run exact reads (by simp)).append fun counted counting => ?_
  refine (counting.dropMoves_run exact writes
    (exact.outputs operator (List.mem_of_getElem? present)) ?_).imp
      fun dropped dropping => dropping.reached_next exact present
  exact fun name written read => exact.not_reads_of_writes (writes name written) (reads name read)

theorem movesFrom_run (exact : lifetimes.Exact graph) {operators : List Operator} :
    ∀ {step : Nat} {state : PlannerState}, graph.operators.drop step = operators →
      step ≤ graph.operators.length →
      state.Consistent graph lifetimes options step (reached step) →
      state.Runs graph lifetimes options graph.operators.length (reached graph.operators.length)
        (graph.movesFrom step operators) := by
  induction operators with
  | nil =>
    intro step state rest inside consistent
    obtain rfl : step = graph.operators.length :=
      Nat.le_antisymm inside (List.drop_eq_nil_iff.mp rest)
    exact consistent
  | cons operator others ih =>
    intro step state rest inside consistent
    obtain ⟨present, next⟩ := of_drop_eq_cons rest
    exact (consistent.stepMoves_run exact present).append fun middle consistent =>
      ih next (List.getElem?_eq_some_iff.mp present).1 consistent

theorem moves_run (exact : lifetimes.Exact graph)
    (starting : state.Consistent graph lifetimes options 0 fun _ _ => none) :
    state.Runs graph lifetimes options graph.operators.length (reached graph.operators.length)
      graph.moves :=
  (starting.entering_zero.entryMoves_run exact (List.drop_zero ..)).append fun _ entering =>
    entering.movesFrom_run exact (List.drop_zero ..) (Nat.zero_le _)

/-- After the last move every tensor is where its lifetime says. -/
theorem of_moves (exact : lifetimes.Exact graph)
    (started : graph.initialState lifetimes = .ok state)
    (walked : graph.moves.foldlM (PlannerState.move graph lifetimes options) state = .ok after) :
    after.Consistent graph lifetimes options graph.operators.length
      (reached graph.operators.length) :=
  ((initialState options exact started).moves_run exact).at_end walked

end Consistent

end PlannerState

/-- With exact lifetimes this is known at every move that the planner makes. -/
theorem Graph.Makes.ready {graph : Graph} {lifetimes : Lifetimes} {options : ArenaOptions}
    {state : PlannerState} {move : Move} (makes : graph.Makes lifetimes options state move)
    (exact : lifetimes.Exact graph) : state.Ready graph lifetimes options move := by
  obtain ⟨initial, done, rest, started, whole, reached⟩ := makes
  have along := (PlannerState.Consistent.initialState options exact started).moves_run exact
  rw [whole] at along
  exact along.at_item reached

end TensorArena
