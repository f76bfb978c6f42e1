import Mathlib.Data.List.Forall2
import TensorArena.Proofs.Arena.Layout
import TensorArena.Proofs.Program.Counting
import TensorArena.Proofs.Program.Sharing
import TensorArena.Program.Execution

/-!
# Running programs

However the evaluations are batched, the queue holds the steps that have been enqueued and not yet
run. The executions and releases so far, and what became of the world, depend on the steps that
have run and on nothing else.
-/

set_option autoImplicit false

namespace TensorArena

/-- The event is an execution or a release. -/
def Event.isEffect : Event → Bool
  | .executed _ => true
  | .released _ => true
  | _ => false

/-- A planned tensor as a kernel sees it. -/
def Plan.handle (plan : Plan) (name : String) : Handle :=
  ⟨name, ((plan.entry? name).map PlanEntry.storage).getD .rom⟩

/-- All that the execution of a program depends on. -/
structure Launch (World : Type) where
  graph : Graph
  lifetimes : Lifetimes
  plan : Plan
  table : InstanceTable
  kernel : Nat → String → Kernel World
  world : World

namespace Launch

variable {World : Type}

/-- The evaluation of a step. -/
def evaluation? (launch : Launch World) (step : Nat) : Option (Evaluation World) := do
  let operator ← launch.graph.operators[step]?
  let shared ← launch.table.instanceOf? step
  return ⟨launch.kernel step shared.symbol, operator.inputs, operator.outputs⟩

/-- What an evaluation makes of the world. -/
def transform (launch : Launch World) (evaluation : Evaluation World) (world : World) : World :=
  (evaluation.kernel.execute (evaluation.inputs.map launch.plan.handle)
    (evaluation.outputs.map launch.plan.handle) world).2

/-- The world when the first steps have run in their order. -/
def worldAfter (launch : Launch World) : Nat → World
  | 0 => launch.world
  | step + 1 =>
    match launch.evaluation? step with
    | some evaluation => launch.transform evaluation (launch.worldAfter step)
    | none => launch.worldAfter step

/-- The execution of a step, and the releases of the tensors that it is the last to use. -/
def effectsOf (launch : Launch World) (step : Nat) (evaluation : Evaluation World) : List Event :=
  .executed evaluation.kernel.name ::
    ((Context.distinct [] evaluation.inputs ++ evaluation.outputs).filter
      (launch.lifetimes.isOver (step + 1))).map .released

/-- The executions and releases of the first steps. -/
def effectsBefore (launch : Launch World) (steps : Nat) : List Event :=
  (List.range steps).flatMap fun step =>
    ((launch.evaluation? step).map (launch.effectsOf step)).getD []

/-- The plan records the lifetimes of the graph, its instances are shared, and no kernel fails. -/
structure Ready (catalog : Catalog) (launch : Launch World) : Prop where
  recorded : launch.graph.Recorded launch.lifetimes launch.plan
  serves : launch.table.Serves catalog launch.graph.operators.length
  succeeds : ∀ index symbol inputs outputs world,
    ((launch.kernel index symbol).execute inputs outputs world).1 = .ok ()

/-- The graph is planned, its instances are shared, and no kernel fails. -/
structure Sound (options : ArenaOptions) (catalog : Catalog) (launch : Launch World) : Prop where
  planned : launch.graph.Planned launch.lifetimes options launch.plan
  serves : launch.table.Serves catalog launch.graph.operators.length
  succeeds : ∀ index symbol inputs outputs world,
    ((launch.kernel index symbol).execute inputs outputs world).1 = .ok ()

/-- The steps before `done` have run and the next `count` ones wait in the queue. -/
structure Running (launch : Launch World) (done count : Nat) (stage : Lifetime → Option Nat)
    (context : Context World) : Prop where
  tracks : context.Tracks launch.lifetimes launch.plan stage
  queue : List.Forall₂ (fun step evaluation => launch.evaluation? step = some evaluation)
    (List.range' done count) context.queue
  world : context.world = launch.worldAfter done
  effects : context.events.filter Event.isEffect = launch.effectsBefore done
  phase : context.phase ≠ .terminated

theorem effectsBefore_succ {launch : Launch World} {step : Nat} {evaluation : Evaluation World}
    (found : launch.evaluation? step = some evaluation) :
    launch.effectsBefore (step + 1) =
      launch.effectsBefore step ++ launch.effectsOf step evaluation := by
  unfold effectsBefore
  rw [List.range_succ, List.flatMap_append]
  simp [found]

theorem effectsOf_filter (launch : Launch World) (step : Nat) (evaluation : Evaluation World) :
    (launch.effectsOf step evaluation).filter Event.isEffect =
      launch.effectsOf step evaluation := by
  rw [List.filter_eq_self]
  intro event member
  rcases List.mem_cons.mp member with rfl | member
  · rfl
  · obtain ⟨name, _, rfl⟩ := List.mem_map.mp member
    rfl

theorem Sound.ready {options : ArenaOptions} {catalog : Catalog} {launch : Launch World}
    (sound : launch.Sound options catalog) : launch.Ready catalog :=
  ⟨sound.planned.toRecorded, sound.serves, sound.succeeds⟩

namespace Ready

variable {catalog : Catalog} {launch : Launch World}
  {context : Context World}

theorem evaluation? (ready : launch.Ready catalog) {step : Nat}
    (inside : step < launch.graph.operators.length) :
    ∃ operator shared, launch.graph.operators[step]? = some operator ∧
      launch.table.instanceOf? step = some shared ∧ launch.table.get? shared.id = some shared ∧
      launch.evaluation? step =
        some ⟨launch.kernel step shared.symbol, operator.inputs, operator.outputs⟩ := by
  obtain ⟨shared, assigned, found⟩ := ready.serves.instanceOf? inside
  refine ⟨_, shared, List.getElem?_eq_getElem inside, assigned, found, ?_⟩
  unfold Launch.evaluation?
  rw [assigned, List.getElem?_eq_getElem inside]
  rfl

/-! ### Evaluations -/

/-- A kernel sees the slots of the plan. -/
theorem resolve (ready : launch.Ready catalog) {stage : Lifetime → Option Nat}
    (tracks : context.Tracks launch.lifetimes launch.plan stage) (names : List String)
    (live : ∀ name ∈ names, ∃ lifetime ∈ launch.lifetimes.tensors, lifetime.name = name ∧
      ∃ clock, stage lifetime = some clock ∧ clock < lifetime.interval.stop) :
    context.resolve names = .ok (names.map launch.plan.handle) := by
  induction names with
  | nil => rfl
  | cons name rest ih =>
    obtain ⟨lifetime, member, rfl, clock, current, unfinished⟩ := live name (by simp)
    obtain ⟨entry, isEntry, found⟩ :=
      tracks.registration? ready.recorded member current unfinished
    have others := ih fun name listed => live name (by simp [listed])
    unfold Context.resolve at others ⊢
    rw [List.mapM_cons, others, Context.lookup, found]
    simp [Plan.handle, isEntry, Registration.handle, pure, Except.pure]

theorem evaluate (ready : launch.Ready catalog) {step next : Nat} (below : step < next)
    (tracks : context.Tracks launch.lifetimes launch.plan (Context.Tracks.settled step next []))
    {evaluation : Evaluation World} (inside : step < launch.graph.operators.length)
    (found : launch.evaluation? step = some evaluation) :
    ∃ after, context.evaluate evaluation = (.ok (), after) ∧
      after.Tracks launch.lifetimes launch.plan (Context.Tracks.settled (step + 1) next []) ∧
      after = { context with
        tensors := after.tensors
        world := launch.transform evaluation context.world
        events := context.events ++ launch.effectsOf step evaluation } := by
  obtain ⟨operator, shared, present, _, _, whole⟩ := ready.evaluation? inside
  obtain rfl := Option.some.inj (found.symm.trans whole)
  have recorded := ready.recorded
  have reads : ∀ name ∈ operator.inputs, launch.graph.Reads step name :=
    fun name member => ⟨operator, present, member⟩
  have writes : ∀ name ∈ operator.outputs, launch.graph.Writes step name :=
    fun name member => ⟨operator, present, member⟩
  have resolved : ∀ names : List String,
      (∀ name ∈ names, launch.graph.Reads step name ∨ launch.graph.Writes step name) →
      context.resolve names = .ok (names.map launch.plan.handle) := by
    intro names operands
    refine ready.resolve tracks names fun name member => ?_
    obtain ⟨lifetime, listed, named, started, unfinished⟩ := recorded.live (operands name member)
    have registered : lifetime.interval.start ≤ next := by omega
    exact ⟨lifetime, listed, named, step, by simp [Context.Tracks.settled, registered], unfinished⟩
  have inputs := resolved operator.inputs fun name member => .inl (reads name member)
  have outputs := resolved operator.outputs fun name member => .inr (writes name member)
  have success := ready.succeeds step shared.symbol (operator.inputs.map launch.plan.handle)
    (operator.outputs.map launch.plan.handle) context.world
  unfold Context.evaluate
  simp only [inputs, outputs]
  unfold transform
  dsimp only
  generalize (launch.kernel step shared.symbol).execute (operator.inputs.map launch.plan.handle)
    (operator.outputs.map launch.plan.handle) context.world = ran at success ⊢
  obtain ⟨result, world⟩ := ran
  obtain rfl : result = .ok () := success
  dsimp only
  -- The kernel has run; the counts of its tensors are still those before the step.
  have noted : Context.Tracks launch.lifetimes launch.plan (Context.Tracks.settled step next [])
      (Context.note { context with world := world }
        (.executed (launch.kernel step shared.symbol).name)) :=
    tracks.of_eq rfl
  have readsOnce : ∀ name ∈ Context.distinct [] operator.inputs, launch.graph.Reads step name :=
    fun name member => reads name (Context.mem_distinct.mp member).1
  obtain ⟨middle, taken, loggedInputs, counted⟩ :=
    noted.decrementInputs recorded below readsOnce (Context.distinct_nodup _ _) (by simp)
  obtain ⟨loggedOutputs, released⟩ := counted.releaseOutputs recorded below writes
    (recorded.exact.outputs operator (List.mem_of_getElem? present)) (by
      intro name written read
      exact recorded.exact.not_reads_of_writes (writes name written)
        (readsOnce name (by simpa using read)))
  rw [List.nil_append] at released
  rw [taken]
  refine ⟨_, rfl, released.settle recorded below present, ?_⟩
  have logged := loggedInputs.trans loggedOutputs
  unfold Context.Logs at logged
  rw [logged]
  unfold effectsOf
  simp only [Context.note, List.append_assoc, List.singleton_append, List.filter_append,
    List.map_append]

end Ready

namespace Running

variable {catalog : Catalog} {launch : Launch World}
  {context : Context World} {done count : Nat} {stage : Lifetime → Option Nat}

/-- The first evaluation of the queue runs. -/
theorem evaluate (ready : launch.Ready catalog)
    (running : launch.Running done (count + 1)
      (Context.Tracks.settled done (done + 1 + count) []) context)
    (inside : done + 1 + count ≤ launch.graph.operators.length) :
    ∃ evaluation rest after, context.queue = evaluation :: rest ∧
      Context.evaluate { context with queue := rest } evaluation = (.ok (), after) ∧
      after.queue = rest ∧
      launch.Running (done + 1) count
        (Context.Tracks.settled (done + 1) (done + 1 + count) []) after := by
  have queue := running.queue
  rw [List.range'_succ] at queue
  cases whole : context.queue with
  | nil =>
    rw [whole] at queue
    cases queue
  | cons evaluation rest =>
    rw [whole] at queue
    obtain ⟨found, others⟩ := List.forall₂_cons.mp queue
    have tracks : Context.Tracks launch.lifetimes launch.plan
        (Context.Tracks.settled done (done + 1 + count) []) { context with queue := rest } :=
      running.tracks.of_eq rfl
    obtain ⟨after, ran, moved, shape⟩ := ready.evaluate (by omega) tracks (by omega) found
    have kept : after.queue = rest := by rw [shape]
    refine ⟨evaluation, rest, after, rfl, ran, kept, moved, kept.symm ▸ others, ?_, ?_, ?_⟩
    · rw [shape, worldAfter, found]
      exact congrArg (launch.transform evaluation) running.world
    · rw [shape, effectsBefore_succ found, List.filter_append, effectsOf_filter]
      exact congrArg (· ++ launch.effectsOf done evaluation) running.effects
    · rw [shape]
      exact running.phase

theorem drain (ready : launch.Ready catalog) {count : Nat} :
    ∀ (executed : Nat) {done : Nat} {context : Context World},
      launch.Running done count (Context.Tracks.settled done (done + count) []) context →
      done + count ≤ launch.graph.operators.length →
      ∃ after, context.drain executed context.queue = (.ok (), after) ∧
        launch.Running (done + count) 0
          (Context.Tracks.settled (done + count) (done + count) []) after := by
  induction count with
  | zero =>
    intro executed done context running _
    have queue := running.queue
    rw [List.range'_zero, List.forall₂_nil_left_iff] at queue
    rw [queue]
    refine ⟨_, rfl, running.tracks.of_eq rfl, running.queue, running.world, ?_,
      by simp [Context.note]⟩
    simpa [Context.note, List.filter_append, Event.isEffect] using running.effects
  | succ count ih =>
    intro executed done context running inside
    have order : done + (count + 1) = done + 1 + count := by omega
    rw [order] at running inside ⊢
    obtain ⟨evaluation, rest, middle, whole, ran, kept, next⟩ := running.evaluate ready inside
    obtain ⟨after, drained, finished⟩ := ih (executed + 1) next inside
    refine ⟨after, ?_, finished⟩
    rw [whole, Context.drain, ran, ← drained, kept]

/-- A flush empties the queue. -/
theorem flush (ready : launch.Ready catalog)
    (running : launch.Running done count (Context.Tracks.settled done (done + count) []) context)
    (inside : done + count ≤ launch.graph.operators.length) :
    ∃ after, context.flush = (.ok (), after) ∧
      launch.Running (done + count) 0
        (Context.Tracks.settled (done + count) (done + count) []) after := by
  unfold Context.flush
  rw [if_neg running.phase]
  exact drain ready 0 running inside

end Running

end Launch

end TensorArena
