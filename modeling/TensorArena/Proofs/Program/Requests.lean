import TensorArena.Proofs.Program.Registering

/-!
# Registrations and the end of a program

A tensor can be registered as soon as every earlier owner of its addresses has been released. At
the end the outside gives up the outputs, and nothing is left.
-/

set_option autoImplicit false

namespace TensorArena

/-- If the slots of the tensors were in use before, they were given back before the step. -/
def Plan.AvailableBefore (plan : Plan) (step : Nat) (names : List String) : Prop :=
  ∀ name ∈ names, ∀ entry, plan.entry? name = some entry →
    ∀ available, entry.availableAfter = some available → available < step

namespace Launch

variable {World : Type}

theorem Clash.congr {launch : Launch World} {stage other : Lifetime → Option Nat}
    {left right : Lifetime} (clash : launch.Clash stage left right)
    (same : ∀ lifetime ∈ launch.lifetimes.tensors, stage lifetime = other lifetime) :
    launch.Clash other left right := by
  refine clash.imp ?_ ?_
  · unfold Lifetime.Present
    rw [same left clash.left_mem]
    exact id
  · unfold Lifetime.Present
    rw [same right clash.right_mem]
    exact id

/-! ### Planned tensors -/

namespace Sound

variable {options : ArenaOptions} {catalog : Catalog} {launch : Launch World}
  {left right : Lifetime}

/-- The tensors that are there before the first step have slots of their own. -/
theorem entries_clear (sound : launch.Sound options catalog) :
    ¬ launch.Clash (Context.Tracks.settled 0 0 []) left right := by
  intro clash
  have started : ∀ lifetime : Lifetime, lifetime.Present (Context.Tracks.settled 0 0 []) →
      lifetime.interval.contains 0 = true := by
    rintro lifetime ⟨clock, current, live⟩
    by_cases start : lifetime.interval.start ≤ 0
    · simp [Interval.contains, Nat.le_zero.mp start]
    · simp [Context.Tracks.settled, start] at current
  obtain ⟨leftEntry, rightEntry, isLeft, isRight, overlap⟩ := clash.overlap
  obtain ⟨address, covers, covered⟩ := (Storage.overlaps_iff _ _).mp overlap
  exact sound.planned.apart clash.left_mem clash.right_mem isLeft isRight clash.unlike 0
    (started left clash.left_present) (started right clash.right_present) address covers covered

/-- The outputs of a step share no address with what is there, if the steps in the queue are not
the ones that give back their slots. -/
theorem outputs_clear (sound : launch.Sound options catalog) {done step : Nat}
    {operator : Operator} (present : launch.graph.operators[step]? = some operator)
    (free : done = step ∨ launch.plan.AvailableBefore done operator.outputs)
    (listed : left.name ∈ operator.outputs) :
    ¬ launch.Clash (Context.Tracks.settled done (step + 1) []) left right := by
  intro clash
  have started := (sound.planned.known clash.left_mem).start_of_writes ⟨operator, present, listed⟩
  have ended := (sound.planned.known clash.left_mem).start_le_stop
  obtain ⟨clock, current, live⟩ := clash.right_present
  have early : right.interval.start ≤ step + 1 := by
    by_contra late
    simp [Context.Tracks.settled, late] at current
  rw [Context.Tracks.settled, if_neg List.not_mem_nil, if_pos early] at current
  obtain rfl := Option.some.inj current
  obtain ⟨leftEntry, rightEntry, isLeft, isRight, overlap⟩ := clash.overlap
  obtain ⟨address, covers, covered⟩ := (Storage.overlaps_iff _ _).mp overlap
  rcases free with current | free
  · exact sound.planned.apart clash.left_mem clash.right_mem isLeft isRight clash.unlike
      left.interval.start (by simp [Interval.contains]; omega)
      (by simp [Interval.contains]; omega) address covers covered
  · exact sound.planned.apart_of_available clash.left_mem clash.right_mem isLeft isRight
      clash.unlike (by omega) (free left.name listed leftEntry isLeft) live address covers covered

end Sound

namespace Running

variable {catalog : Catalog} {launch : Launch World}
  {context : Context World} {execution : Execution World} {done count : Nat}
  {stage : Lifetime → Option Nat}

theorem congr (running : launch.Running done count stage context) {other : Lifetime → Option Nat}
    (same : ∀ lifetime ∈ launch.lifetimes.tensors, stage lifetime = other lifetime) :
    launch.Running done count other context :=
  { running with
    tracks := running.tracks.congr fun lifetime member _ => by rw [same lifetime member] }

theorem initial (launch : Launch World) :
    launch.Running 0 0 (fun _ => none) { world := launch.world } where
  tracks := ⟨List.nodup_nil, by simp, fun _ _ _ _ => rfl⟩
  queue := .nil
  world := rfl
  effects := rfl
  phase := by simp

/-! ### Registering -/

/-- The tensors that are there before the first step are registered. -/
theorem registerEntries (ready : launch.Ready catalog) :
    launch.Registers { context := { world := launch.world } } launch.plan.entrySteps
      (launch.Clash (Context.Tracks.settled 0 0 []))
      fun after => after.declared = [] ∧
        launch.Running 0 0 (Context.Tracks.settled 0 0 []) after.context := by
  have recorded := ready.recorded
  let names := (launch.plan.entries.filter fun entry => entry.role ≠ .intermediate).map
    PlanEntry.name
  have listed : ∀ lifetime ∈ launch.lifetimes.tensors,
      lifetime.name ∈ names ↔ lifetime.interval.start ≤ 0 := by
    intro lifetime member
    obtain ⟨entry, inEntries, _, named, role, _⟩ := recorded.entry member
    rw [Nat.le_zero, (recorded.known member).start_eq_zero_iff, ← role, ← named]
    constructor
    · intro present
      obtain ⟨other, chosen, sameName⟩ := List.mem_map.mp present
      obtain ⟨isOther, kept⟩ := List.mem_filter.mp chosen
      obtain rfl := TensorArena.eq_of_name_eq PlanEntry.name recorded.names isOther inEntries
        sameName
      simpa using kept
    · intro kept
      exact List.mem_map_of_mem (List.mem_filter.mpr ⟨inEntries, by simpa using kept⟩)
  have arriving : ∀ name ∈ names, ∃ lifetime, lifetime.name = name ∧
      launch.Awaited 0 (fun _ => none) lifetime := by
    intro name present
    obtain ⟨entry, chosen, rfl⟩ := List.mem_map.mp present
    obtain ⟨lifetime, member, named⟩ :=
      recorded.lifetime_of_mem entry (List.mem_filter.mp chosen).1
    exact ⟨lifetime, named, member, rfl, Nat.zero_le _, (recorded.known member).stop_pos⟩
  have same : ∀ lifetime ∈ launch.lifetimes.tensors,
      joined 0 names (fun _ => none) lifetime = Context.Tracks.settled 0 0 [] lifetime := by
    intro lifetime member
    simp only [joined, Context.Tracks.settled, listed lifetime member, List.not_mem_nil, ↓reduceIte]
  have steps : launch.plan.entrySteps = names.map Step.register := by
    simp [Plan.entrySteps, names, Function.comp_def]
  rw [steps]
  refine ((registerAll ready arriving (recorded.names.sublist (List.filter_sublist.map _))
    (initial launch)).imp fun after ended => ⟨ended.1, ended.2.congr same⟩).congr ?_ ?_
  · exact fun left right clash => clash.2.congr same
  · intro left right clash
    obtain ⟨clock, current, _⟩ := clash.left_present
    have start : left.interval.start ≤ 0 := by
      by_contra late
      simp [Context.Tracks.settled, late] at current
    exact ⟨left, right, (listed left clash.left_mem).mpr start,
      clash.congr fun lifetime member => (same lifetime member).symm⟩

/-- The outputs of the next step are registered. -/
theorem registerOutputs (ready : launch.Ready catalog) {operator : Operator}
    (present : launch.graph.operators[done + count]? = some operator)
    (running : launch.Running done count (Context.Tracks.settled done (done + count) [])
      execution.context) :
    launch.Registers execution (operator.outputs.map Step.register)
      (fun left right => left.name ∈ operator.outputs ∧
        launch.Clash (Context.Tracks.settled done (done + count + 1) []) left right)
      fun after => after.declared = execution.declared ∧
        launch.Running done count (Context.Tracks.settled done (done + count + 1) [])
          after.context := by
  have recorded := ready.recorded
  have arriving : ∀ name ∈ operator.outputs, ∃ lifetime, lifetime.name = name ∧
      launch.Awaited done (Context.Tracks.settled done (done + count) []) lifetime := by
    intro name listed
    have writes : launch.graph.Writes (done + count) name := ⟨operator, present, listed⟩
    obtain ⟨lifetime, member, rfl⟩ := recorded.exact.exists_of_writes writes
    have known := recorded.known member
    have started := known.start_of_writes writes
    have ended := known.start_le_stop
    have late : ¬ lifetime.interval.start ≤ done + count := by omega
    exact ⟨lifetime, rfl, member, by simp [Context.Tracks.settled, late], by omega, by omega⟩
  -- The outputs of the step are those tensors that start with it.
  have same : ∀ lifetime ∈ launch.lifetimes.tensors,
      joined done operator.outputs (Context.Tracks.settled done (done + count) []) lifetime =
        Context.Tracks.settled done (done + count + 1) [] lifetime := by
    intro lifetime member
    have started := (recorded.known member).started_iff present
    by_cases listed : lifetime.name ∈ operator.outputs
    · simp [joined, Context.Tracks.settled, listed, started.mp (.inr listed)]
    · have unchanged : lifetime.interval.start ≤ done + count ↔
          lifetime.interval.start ≤ done + count + 1 := by
        rw [← started]
        simp [listed]
      simp only [joined, Context.Tracks.settled, listed, unchanged, List.not_mem_nil, ↓reduceIte]
  refine ((registerAll ready arriving
    (recorded.exact.outputs operator (List.mem_of_getElem? present)) running).imp
    fun after ended => ⟨ended.1, ended.2.congr same⟩).congr ?_ ?_
  · exact fun left right clash => ⟨clash.1, clash.2.congr same⟩
  · exact fun left right clash => ⟨left, right, clash.1,
      clash.2.congr fun lifetime member => (same lifetime member).symm⟩

/-! ### Enqueueing -/

theorem enqueue (ready : launch.Ready catalog)
    (running : launch.Running done count
      (Context.Tracks.settled done (done + count + 1) []) context)
    {evaluation : Evaluation World} (inside : done + count < launch.graph.operators.length)
    (found : launch.evaluation? (done + count) = some evaluation) :
    ∃ after, context.enqueue evaluation = (.ok (), after) ∧
      launch.Running done (count + 1)
        (Context.Tracks.settled done (done + count + 1) []) after := by
  obtain ⟨operator, shared, present, _, _, whole⟩ := ready.evaluation? inside
  obtain rfl := Option.some.inj (found.symm.trans whole)
  have accepted := context.enqueue_eq_ok
    ⟨launch.kernel (done + count) shared.symbol, operator.inputs, operator.outputs⟩
    running.phase (by
      intro name listed
      rw [List.mem_append, ← Graph.reads_iff present, ← Graph.writes_iff present] at listed
      obtain ⟨lifetime, member, rfl, started, unfinished⟩ := ready.recorded.live listed
      have waits : done < lifetime.interval.stop := by omega
      obtain ⟨entry, _, registered⟩ := running.tracks.registration? ready.recorded member
        (by simp [Context.Tracks.settled, started]) waits
      rw [Context.isRegistered, registered]
      rfl)
  refine ⟨_, accepted, running.tracks.of_eq rfl, ?_, running.world, ?_, by simp⟩
  · rw [List.range'_1_concat]
    exact List.rel_append running.queue (.cons found .nil)
  · simpa [List.filter_append, Event.isEffect] using running.effects

/-! ### The end -/

/-- The outside gives up the outputs of the graph. -/
theorem decrementOutputs (ready : launch.Ready catalog) {names : List String} :
    ∀ {given : List String} {context : Context World},
      context.Tracks launch.lifetimes launch.plan (Context.Tracks.settled
        launch.graph.operators.length launch.graph.operators.length given) →
      (∀ name ∈ names, launch.graph.isOutput name = true ∧
        ∃ lifetime ∈ launch.lifetimes.tensors, lifetime.name = name) →
      names.Nodup → (∀ name ∈ names, name ∉ given) →
      ∃ after, context.decrementAll names = (.ok (), after) ∧
        context.Logs (names.map .released) after ∧
        after.Tracks launch.lifetimes launch.plan (Context.Tracks.settled
          launch.graph.operators.length launch.graph.operators.length (given ++ names)) := by
  induction names with
  | nil =>
    intro given context tracks _ _ _
    refine ⟨context, rfl, .refl context, ?_⟩
    rwa [List.append_nil]
  | cons name rest ih =>
    intro given context tracks outputs distinct fresh
    rw [List.nodup_cons] at distinct
    obtain ⟨isOutput, lifetime, member, rfl⟩ := outputs name (by simp)
    have known := ready.recorded.known member
    have output : lifetime.isOutput = true := known.isOutput.trans isOutput
    have stop := known.stop_of_output output
    have unread : lifetime.readersFrom launch.graph.operators.length = 0 := by
      rw [Lifetime.readersFrom_eq_zero_iff]
      exact fun reader reads => ((known.consumers reader).mp reads).lt_length
    have current : Context.Tracks.settled launch.graph.operators.length
        launch.graph.operators.length given lifetime = some launch.graph.operators.length := by
      simp [Context.Tracks.settled, fresh _ (List.mem_cons_self ..), known.start_le_length]
    have counted : lifetime.countAt launch.graph.operators.length = 0 + 1 := by
      simp [Lifetime.countAt, unread, output]
    have expired : 0 = 0 ↔ lifetime.interval.stop ≤ launch.graph.operators.length + 1 := by
      simp [stop]
    obtain ⟨middle, taken, logged, moved⟩ :=
      tracks.decrement ready.recorded member current (by omega) counted expired (by simp)
    rw [Context.Tracks.settled_append] at moved
    rw [if_pos (Nat.le_of_eq stop)] at logged
    obtain ⟨after, finished, others, reached⟩ := ih moved
      (fun name listed => outputs name (by simp [listed])) distinct.2
      (fresh_append distinct.1 fresh)
    refine ⟨after, ?_, by simpa using logged.trans others, by simpa using reached⟩
    unfold Context.decrementAll
    rw [taken]
    exact finished

/-- Nothing stays registered once the outputs are given up. -/
theorem tensors_eq_nil (ready : launch.Ready catalog)
    (tracks : context.Tracks launch.lifetimes launch.plan (Context.Tracks.settled
      launch.graph.operators.length launch.graph.operators.length launch.graph.outputs)) :
    context.tensors = [] := by
  rw [List.eq_nil_iff_forall_not_mem]
  intro registration listed
  obtain ⟨lifetime, member, _, clock, current, live, _⟩ := tracks.live_of_mem ready.recorded listed
  have known := ready.recorded.known member
  unfold Context.Tracks.settled at current
  by_cases output : lifetime.name ∈ launch.graph.outputs
  · have isOutput : lifetime.isOutput = true := by simpa [known.isOutput, Graph.isOutput] using output
    have stop := known.stop_of_output isOutput
    rw [if_pos output] at current
    have := Option.some.inj current
    omega
  · have expired := known.stop_le_length_iff.mpr output
    rw [if_neg output, if_pos known.start_le_length] at current
    have := Option.some.inj current
    omega

/-- When all steps have run, the program ends with the release of the outputs. -/
theorem finish (ready : launch.Ready catalog)
    (running : launch.Running launch.graph.operators.length 0 (Context.Tracks.settled
      launch.graph.operators.length launch.graph.operators.length []) context)
    (distinct : launch.graph.outputs.Nodup)
    (declared : ∀ name ∈ launch.graph.outputs,
      ∃ lifetime ∈ launch.lifetimes.tensors, lifetime.name = name) :
    ∃ after, context.finish launch.graph.outputs = (.ok (), after) ∧ after.tensors = [] ∧
      after.queue = [] ∧ after.phase = .terminated ∧
      after.world = launch.worldAfter launch.graph.operators.length ∧
      after.events = context.events ++ .flushed 0 :: launch.graph.outputs.map .released := by
  have queue := running.queue
  rw [List.range'_zero, List.forall₂_nil_left_iff] at queue
  have flushed : context.flush =
      (.ok (), { context with phase := .flushed }.note (.flushed 0)) := by
    unfold Context.flush
    rw [if_neg running.phase]
    exact congrArg (context.drain 0) queue
  have idle : Context.Tracks launch.lifetimes launch.plan (Context.Tracks.settled
      launch.graph.operators.length launch.graph.operators.length [])
      (Context.note { context with phase := .flushed } (.flushed 0)) :=
    running.tracks.of_eq rfl
  obtain ⟨after, given, logged, tracks⟩ := decrementOutputs ready idle
    (fun name listed => ⟨by simpa [Graph.isOutput] using listed, declared name listed⟩) distinct
    (by simp)
  rw [List.nil_append] at tracks
  have empty := tensors_eq_nil ready tracks
  unfold Context.Logs at logged
  refine ⟨{ after with phase := .terminated }, ?_, empty, ?_, rfl, ?_, ?_⟩
  · unfold Context.finish
    rw [flushed]
    dsimp only
    rw [given]
    simp [empty]
  · rw [logged]
    exact queue
  · rw [logged]
    exact running.world
  · rw [logged]
    simp [Context.note]

end Running

end Launch

end TensorArena
