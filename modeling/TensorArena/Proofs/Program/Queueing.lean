import TensorArena.Proofs.Program.Draining

/-!
# The order of evaluations

Evaluations are consumed in the order in which they were enqueued. A flush runs each of those that
it consumes once, except that the last one may be what it fails at.
-/

set_option autoImplicit false

namespace TensorArena

variable {World : Type}

/-- A request of a session and the context that it finds. -/
structure Exchange (World : Type) where
  before : Context World
  request : Request World

namespace Exchange

def result (exchange : Exchange World) : Except ContextError Unit :=
  (exchange.before.perform exchange.request).1

def after (exchange : Exchange World) : Context World :=
  (exchange.before.perform exchange.request).2

/-- The events that the request has added. -/
def log (exchange : Exchange World) : List Event :=
  exchange.after.events.drop exchange.before.events.length

/-- The evaluation that the request has put into the queue. -/
def enqueued (exchange : Exchange World) : List (Evaluation World) :=
  match exchange.request, exchange.result with
  | .enqueue evaluation, .ok () => [evaluation]
  | _, _ => []

/-- The evaluations that the request has taken from the front of the queue. -/
def consumed (exchange : Exchange World) : List (Evaluation World) :=
  exchange.before.queue.take (exchange.before.queue.length - exchange.after.queue.length)

/-- The request flushes a running context. One to finish begins with a flush. -/
def Flushes (exchange : Exchange World) : Prop :=
  exchange.before.phase ≠ .terminated ∧
    (exchange.request = .flush ∨ ∃ outputs, exchange.request = .finish outputs)

end Exchange

/-- The requests of a session with the contexts that they find. -/
def Context.exchanges (context : Context World) : List (Request World) → List (Exchange World)
  | [] => []
  | request :: rest => ⟨context, request⟩ :: (context.perform request).2.exchanges rest

namespace Exchange

variable {exchange : Exchange World} {taken : List (Evaluation World)} {error : ContextError}

/-- The events are those of the log, and the queue has lost some evaluations at its front or got one
at its end. -/
structure Takes (exchange : Exchange World) (taken : List (Evaluation World))
    (log : List Event) : Prop where
  events : exchange.after.events = exchange.before.events ++ log
  queue : exchange.before.queue ++ exchange.enqueued = taken ++ exchange.after.queue
  oneSided : taken = [] ∨ exchange.enqueued = []

namespace Takes

variable {log : List Event}

theorem log_eq (takes : exchange.Takes taken log) : exchange.log = log := by
  rw [Exchange.log, takes.events, List.drop_left]

theorem consumed_eq (takes : exchange.Takes taken log) : exchange.consumed = taken := by
  have queue := takes.queue
  have lengths := congrArg List.length queue
  rw [List.length_append, List.length_append] at lengths
  unfold consumed
  rcases takes.oneSided with none | none
  · rw [none, List.length_nil] at lengths
    rw [none, show exchange.before.queue.length - exchange.after.queue.length = 0 by omega,
      List.take_zero]
  · rw [none, List.append_nil] at queue
    rw [queue, List.length_append, Nat.add_sub_cancel, List.take_left]

end Takes

theorem enqueued_of_flushes (flushes : exchange.Flushes) : exchange.enqueued = [] := by
  unfold enqueued
  rcases flushes.2 with request | ⟨outputs, request⟩
  · rw [request]
  · rw [request]

/-- Only a flush takes evaluations from the queue and runs them. -/
theorem takes_of_idle (idle : ¬ exchange.Flushes) :
    ∃ log, exchange.Takes [] log ∧ Context.executions log = [] ∧ Context.flushCounts log = [] := by
  obtain ⟨before, request⟩ := exchange
  have unchanged (error : ContextError)
      (failed : before.perform request = (.error error, before)) :
      ∃ log, (⟨before, request⟩ : Exchange World).Takes [] log ∧
        Context.executions log = [] ∧ Context.flushCounts log = [] := by
    refine ⟨[], ⟨?_, ?_, .inl rfl⟩, rfl, rfl⟩
    · rw [after, failed, List.append_nil]
    · rw [after, enqueued, result, failed, List.nil_append]
      cases request <;> exact List.append_nil _
  have refused (running : ¬ (before.phase ≠ .terminated)) :
      before.perform request = (.error .terminated, before) :=
    Context.perform_of_terminated (not_not.mp running) request
  cases request with
  | register name storage refcount =>
    rcases before.register_cases name storage refcount with ⟨error, failed⟩ | ⟨_, registered⟩
    · exact unchanged error failed
    · have performed : before.perform (.register name storage refcount) = _ := registered
      refine ⟨[.registered name refcount], ⟨?_, ?_, .inl rfl⟩, rfl, rfl⟩
      · rw [after, performed]
      · rw [after, enqueued, result, performed]
        exact List.append_nil _
  | enqueue evaluation =>
    rcases before.enqueue_cases evaluation with ⟨error, failed⟩ | queued
    · exact unchanged error failed
    · have performed : before.perform (.enqueue evaluation) = _ := queued
      refine ⟨[.enqueued evaluation.kernel.name], ⟨?_, ?_, .inl rfl⟩, rfl, rfl⟩
      · rw [after, performed]
      · rw [after, enqueued, result, performed]
        rfl
  | flush => exact unchanged _ (refused fun running => idle ⟨running, .inl rfl⟩)
  | finish outputs => exact unchanged _ (refused fun running => idle ⟨running, .inr ⟨outputs, rfl⟩⟩)

/-- What follows a flush that succeeds leaves the queue and the world alone and logs releases. -/
theorem after_of_flushed {middle : Context World} (flushes : exchange.Flushes)
    (flushed : exchange.before.flush = (.ok (), middle)) :
    exchange.after.queue = middle.queue ∧ exchange.after.world = middle.world ∧
      ∃ released : List String, exchange.after.events = middle.events ++ released.map .released := by
  obtain ⟨before, request⟩ := exchange
  unfold after
  rcases flushes.2 with rfl | ⟨outputs, rfl⟩
  · have performed : before.perform .flush = (.ok (), middle) := flushed
    rw [performed]
    exact ⟨rfl, rfl, [], (List.append_nil _).symm⟩
  · have gives : Context.Bookkeeping fun context : Context World =>
        context.decrementAll outputs := .decrementAll outputs
    have ⟨result, left, released, acts⟩ := gives middle.tensors
    have given : middle.decrementAll outputs = _ := acts middle rfl
    have performed : before.perform (.finish outputs) = before.finish outputs := rfl
    rw [performed, Context.finish, flushed]
    dsimp only
    rw [given]
    cases result with
    | error error => exact ⟨rfl, rfl, released, rfl⟩
    | ok =>
      dsimp only
      split
      · exact ⟨rfl, rfl, released, rfl⟩
      · exact ⟨rfl, rfl, released, rfl⟩

theorem perform_of_stopped {stopped : Context World} (flushes : exchange.Flushes)
    (failed : exchange.before.flush = (.error error, stopped)) :
    exchange.result = .error error ∧ exchange.after = stopped := by
  obtain ⟨before, request⟩ := exchange
  have performed : before.perform request = (.error error, stopped) := by
    rcases flushes.2 with rfl | ⟨outputs, rfl⟩
    · exact failed
    · show before.finish outputs = _
      rw [Context.finish, failed]
  exact ⟨congrArg Prod.fst performed, congrArg Prod.snd performed⟩

/-- A flush that succeeds runs all that is queued. -/
theorem takes_of_flush_ok (flushes : exchange.Flushes)
    (success : exchange.before.flush.1 = .ok ()) :
    ∃ log, exchange.Takes exchange.before.queue log ∧ exchange.after.queue = [] ∧
      Context.executions log = exchange.before.queue.map Evaluation.name ∧
      Context.flushCounts log = [(Context.executions log).length] ∧
      Context.Executes exchange.before.world exchange.before.queue exchange.after.world := by
  rcases Context.flush_cases exchange.before flushes.1 with
    ⟨ran, isRun, flushed⟩ | ⟨_, _, _, _, error, _, _, _, _, failed⟩
  · have ⟨queue, world, released, events⟩ := after_of_flushed flushes flushed
    have ⟨log, shows⟩ := Context.evaluateAll_shows isRun
    have executed : Context.executions
        (log ++ (.flushed exchange.before.queue.length :: released.map .released)) =
          exchange.before.queue.map Evaluation.name := by
      rw [Context.executions_append, shows.executions]
      exact (congrArg (_ ++ ·) (Context.executions_released released)).trans (List.append_nil _)
    refine ⟨_, ⟨?_, ?_, .inr (enqueued_of_flushes flushes)⟩, queue, executed, ?_, ?_⟩
    · rw [events, shows.events, List.append_assoc, List.append_assoc]
      rfl
    · rw [enqueued_of_flushes flushes, queue]
    · rw [executed, List.length_map, Context.flushCounts_append, shows.flushCounts]
      exact congrArg (_ :: ·) (Context.flushCounts_released released)
    · rw [world]
      exact shows.executes
  · rw [failed] at success
    cases success

/-- A flush that fails consumes one evaluation more than it completes. That one has not been
executed, or it was read with a count of zero. -/
theorem takes_of_flush_error (flushes : exchange.Flushes)
    (failure : exchange.before.flush.1 = .error error) :
    exchange.result = .error error ∧ ∃ done evaluation between log,
      exchange.Takes (done ++ [evaluation]) log ∧ Context.flushCounts log = [] ∧
      Context.Executes exchange.before.world done between ∧
      (Context.executions log = done.map Evaluation.name ∧
          (exchange.after.world = between ∨ ∃ inputs outputs,
            evaluation.kernel.execute inputs outputs between =
              (.error error, exchange.after.world)) ∨
        Context.executions log = (done ++ [evaluation]).map Evaluation.name ∧
          Context.Executes between [evaluation] exchange.after.world ∧
          ∃ name, error = .refcountUnderflow name) := by
  have none := enqueued_of_flushes flushes
  rcases Context.flush_cases exchange.before flushes.1 with
    ⟨_, _, flushed⟩ | ⟨done, evaluation, rest, middle, other, last, split, ran, failed, stopped⟩
  · rw [flushed] at failure
    cases failure
  · rw [stopped] at failure
    cases failure
    have ⟨result, left⟩ := perform_of_stopped flushes stopped
    have ⟨log, shows⟩ := Context.evaluateAll_shows ran
    have queue : exchange.before.queue ++ exchange.enqueued =
        (done ++ [evaluation]) ++ exchange.after.queue := by
      rw [none, List.append_nil, split, left, List.append_assoc]
      rfl
    refine ⟨result, done, evaluation, middle.world, ?_⟩
    rcases middle.evaluate_cases evaluation with
      ⟨error, world, attempted, unrun⟩ | ⟨isRun, finished | ⟨name, _, _, overdrawn⟩⟩
    · cases failed.symm.trans unrun
      refine ⟨log, ⟨?_, queue, .inr none⟩, shows.flushCounts, shows.executes,
        .inl ⟨shows.executions, ?_⟩⟩
      · rw [left]
        exact shows.events
      · rw [left]
        exact Context.attempt_cases attempted
    · rw [failed] at finished
      cases finished
    · rw [failed] at isRun overdrawn
      have ⟨ending, ends⟩ := isRun.shows
      have whole := shows.append ends
      refine ⟨log ++ ending, ⟨?_, queue, .inr none⟩, whole.flushCounts, shows.executes,
        .inr ⟨whole.executions, ?_, name, Except.error.inj overdrawn⟩⟩
      · rw [left]
        exact whole.events
      · rw [left]
        exact ends.executes

theorem exists_takes (exchange : Exchange World) : ∃ taken log, exchange.Takes taken log := by
  by_cases flushes : exchange.Flushes
  · cases flushed : exchange.before.flush.1 with
    | ok =>
      have ⟨log, takes, _⟩ := takes_of_flush_ok flushes flushed
      exact ⟨_, log, takes⟩
    | error error =>
      have ⟨_, _, _, _, log, takes, _⟩ := takes_of_flush_error flushes flushed
      exact ⟨_, log, takes⟩
  · have ⟨log, takes, _⟩ := takes_of_idle flushes
    exact ⟨[], log, takes⟩

end Exchange

namespace Context

/-- What has been enqueued is what has been consumed and what still waits. -/
theorem enqueued_eq (context : Context World) (requests : List (Request World)) :
    context.queue ++ (context.exchanges requests).flatMap Exchange.enqueued =
      (context.exchanges requests).flatMap Exchange.consumed ++
        (context.performAll requests).queue := by
  induction requests generalizing context with
  | nil => exact List.append_nil _
  | cons request rest ih =>
    have ⟨taken, log, takes⟩ := (⟨context, request⟩ : Exchange World).exists_takes
    have later := ih (context.perform request).2
    rw [exchanges, List.flatMap_cons, List.flatMap_cons, takes.consumed_eq, List.append_assoc,
      ← List.append_assoc, takes.queue, List.append_assoc]
    exact congrArg (taken ++ ·) later

theorem events_eq (context : Context World) (requests : List (Request World)) :
    (context.performAll requests).events =
      context.events ++ (context.exchanges requests).flatMap Exchange.log := by
  induction requests generalizing context with
  | nil => exact (List.append_nil _).symm
  | cons request rest ih =>
    have ⟨taken, log, takes⟩ := (⟨context, request⟩ : Exchange World).exists_takes
    have added : (context.perform request).2.events = context.events ++ log := takes.events
    rw [exchanges, List.flatMap_cons, takes.log_eq, ← List.append_assoc, ← added]
    exact ih (context.perform request).2

/-- Evaluations are run in the order in which they come, and at most once. In a session what was
enqueued is what was consumed, followed by what still waits. Only a flush of a running context
consumes anything. If it succeeds it has run the whole queue, evaluation after evaluation, and its
event has their number. If it fails, the last evaluation that it has consumed, and no other one, is
the one it fails at. All those before have run, and that one has not, unless it has read a tensor
whose count was zero. -/
theorem session_runs_in_order (world : World) (requests : List (Request World)) :
    let exchanges := exchanges { world } requests
    let context := performAll { world } requests
    exchanges.flatMap Exchange.enqueued =
        exchanges.flatMap Exchange.consumed ++ context.queue ∧
      exchanges.flatMap Exchange.log = context.events ∧
      ∀ exchange ∈ exchanges,
        exchange.before.queue ++ exchange.enqueued =
            exchange.consumed ++ exchange.after.queue ∧
          (¬ exchange.Flushes → exchange.consumed = [] ∧ executions exchange.log = [] ∧
            flushCounts exchange.log = []) ∧
          (exchange.Flushes → exchange.before.flush.1 = .ok () →
            exchange.after.queue = [] ∧
            executions exchange.log = exchange.consumed.map Evaluation.name ∧
            flushCounts exchange.log = [(executions exchange.log).length] ∧
            Executes exchange.before.world exchange.consumed exchange.after.world) ∧
          (exchange.Flushes → ∀ error, exchange.before.flush.1 = .error error →
            exchange.result = .error error ∧ flushCounts exchange.log = [] ∧
            ∃ done evaluation between, exchange.consumed = done ++ [evaluation] ∧
              Executes exchange.before.world done between ∧
              (executions exchange.log = done.map Evaluation.name ∧
                  (exchange.after.world = between ∨ ∃ inputs outputs,
                    evaluation.kernel.execute inputs outputs between =
                      (.error error, exchange.after.world)) ∨
                executions exchange.log = (done ++ [evaluation]).map Evaluation.name ∧
                  Executes between [evaluation] exchange.after.world ∧
                  ∃ name, error = .refcountUnderflow name)) := by
  intro exchanges context
  refine ⟨enqueued_eq { world } requests, (events_eq { world } requests).symm, ?_⟩
  intro exchange _
  refine ⟨?_, ?_, ?_, ?_⟩
  · have ⟨taken, log, takes⟩ := exchange.exists_takes
    rw [takes.consumed_eq]
    exact takes.queue
  · intro idle
    have ⟨log, takes, unexecuted, unflushed⟩ := Exchange.takes_of_idle idle
    rw [takes.log_eq, takes.consumed_eq]
    exact ⟨rfl, unexecuted, unflushed⟩
  · intro flushes success
    have ⟨log, takes, rest⟩ := Exchange.takes_of_flush_ok flushes success
    rw [takes.log_eq, takes.consumed_eq]
    exact rest
  · intro flushes error failure
    have ⟨result, done, evaluation, between, log, takes, unflushed, rest⟩ :=
      Exchange.takes_of_flush_error flushes failure
    rw [takes.log_eq, takes.consumed_eq]
    exact ⟨result, unflushed, done, evaluation, between, rfl, rest⟩

/-- A kernel that writes its name down. -/
def recorder (name : String) : Kernel (List String) where
  name
  execute _ _ names := (.ok (), names ++ [name])

/-- A session with a flush that fails before an execution, one that fails behind an execution, and
one that succeeds. -/
def interruptedSession : List (Request (List String)) :=
  [.register "x" (.arena 0 4) 3, .register "y" (.arena 4 4) 0,
    .enqueue ⟨recorder "first", ["x"], []⟩,
    .enqueue ⟨⟨"second", fun _ _ names => (.error (.failed "second" "fault"), names)⟩, ["x"], []⟩,
    .enqueue ⟨recorder "third", ["x"], []⟩, .flush,
    .enqueue ⟨recorder "fourth", ["y"], []⟩, .enqueue ⟨recorder "fifth", ["x"], ["y"]⟩, .flush,
    .flush]

theorem interruptedSession_runs_in_order :
    let exchanges := exchanges { world := [] } interruptedSession
    let context := performAll { world := [] } interruptedSession
    exchanges.flatMap Exchange.enqueued = exchanges.flatMap Exchange.consumed ∧
      exchanges.map (fun exchange => exchange.consumed.map Evaluation.name) =
        [[], [], [], [], [], ["first", "second"], [], [], ["third", "fourth"], ["fifth"]] ∧
      context.world = ["first", "third", "fourth", "fifth"] ∧
      ∃ exchange ∈ exchanges, exchange.Flushes ∧
        exchange.before.flush.1 = .error (.refcountUnderflow "y") ∧
        exchange.result = .error (.refcountUnderflow "y") ∧
        ∃ done evaluation, exchange.consumed = done ++ [evaluation] ∧
          evaluation.name = "fourth" := by
  intro exchanges context
  have ⟨whole, _, each⟩ := session_runs_in_order [] interruptedSession
  have idle : context.queue = [] := List.eq_nil_of_length_eq_zero (by decide +kernel)
  have whole : exchanges.flatMap Exchange.enqueued =
      exchanges.flatMap Exchange.consumed ++ context.queue := whole
  rw [idle, List.append_nil] at whole
  refine ⟨whole, by decide +kernel, by decide +kernel, ?_⟩
  let exchange : Exchange (List String) :=
    ⟨performAll { world := [] } (interruptedSession.take 8), .flush⟩
  have found : exchanges[8]? = some exchange := rfl
  have flushes : exchange.Flushes := ⟨by decide +kernel, .inl rfl⟩
  have failure : exchange.before.flush.1 = .error (.refcountUnderflow "y") := by decide +kernel
  have ⟨_, _, _, failing⟩ := each exchange (List.mem_of_getElem? found)
  have ⟨result, _, done, evaluation, _, consumed, _⟩ := failing flushes _ failure
  have names : exchange.consumed.map Evaluation.name = ["third"] ++ ["fourth"] := by decide +kernel
  rw [consumed, List.map_append] at names
  exact ⟨exchange, List.mem_of_getElem? found, flushes, failure, result, done, evaluation, consumed,
    List.singleton_inj.mp (List.append_inj_right' names rfl)⟩

end Context

end TensorArena
