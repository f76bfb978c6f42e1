import TensorArena.Proofs.Program.Session
import TensorArena.Proofs.Program.Settling

/-!
# Draining a queue

An evaluation looks at the registered tensors and at the world, not at the queue. So a flush does
with the evaluations in front of the queue what it would do with them alone, and it ends at the
first one that fails.
-/

set_option autoImplicit false

namespace TensorArena

/-- The name under which an execution is logged. -/
abbrev Evaluation.name {World : Type} (evaluation : Evaluation World) : String :=
  evaluation.kernel.name

namespace Context

variable {World : Type} {context middle after stopped : Context World}
  {evaluation : Evaluation World} {queue done rest : List (Evaluation World)}
  {error : ContextError}

/-! ### Calls that keep the books -/

/-- What a call does to a context depends on the registered tensors only. If they are these, it
changes them in one way and logs the same releases. -/
def BooksOn (tensors : List Registration) (call : Context World → Outcome World) : Prop :=
  ∃ (result : Except ContextError Unit) (left : List Registration) (released : List String),
    ∀ context : Context World, context.tensors = tensors →
      call context = (result, { context with
        tensors := left
        events := context.events ++ released.map .released })

/-- A call that looks at nothing but the registered tensors. -/
def Bookkeeping (call : Context World → Outcome World) : Prop :=
  ∀ tensors, BooksOn tensors call

theorem BooksOn.congr {tensors : List Registration} {call other : Context World → Outcome World}
    (books : BooksOn tensors other)
    (same : ∀ context : Context World, context.tensors = tensors → call context = other context) :
    BooksOn tensors call := by
  have ⟨result, left, released, acts⟩ := books
  refine ⟨result, left, released, ?_⟩
  intro context held
  rw [same context held, acts context held]

namespace Bookkeeping

variable {first second : Context World → Outcome World}

/-- A call with one result that changes nothing. -/
theorem unchanged (result : Except ContextError Unit) :
    Bookkeeping fun context : Context World => (result, context) := by
  intro tensors
  refine ⟨result, tensors, [], ?_⟩
  intro context held
  rw [List.map_nil, List.append_nil, ← held]

theorem andThen (earlier : Bookkeeping first) (later : Bookkeeping second) :
    Bookkeeping fun context : Context World =>
      match first context with
      | (.error error, after) => (.error error, after)
      | (.ok (), after) => second after := by
  intro tensors
  have ⟨result, left, released, acts⟩ := earlier tensors
  cases result with
  | error error =>
    refine ⟨.error error, left, released, ?_⟩
    intro context held
    dsimp only
    rw [acts context held]
  | ok =>
    have ⟨last, final, others, ends⟩ := later left
    refine ⟨last, final, released ++ others, ?_⟩
    intro context held
    dsimp only
    rw [acts context held, List.map_append, ← List.append_assoc]
    exact ends _ rfl

theorem release (name : String) :
    Bookkeeping fun context : Context World => (.ok (), context.release name) := by
  intro tensors
  by_cases registered :
    (tensors.find? fun registration => registration.name == name).isSome = true
  · refine ⟨.ok (), tensors.filter fun registration => registration.name ≠ name, [name], ?_⟩
    intro context held
    rw [← held] at registered ⊢
    exact congrArg _ (if_pos registered)
  · apply (unchanged (.ok ()) tensors).congr
    intro context held
    rw [← held] at registered
    exact congrArg _ (if_neg registered)

theorem decrement (name : String) :
    Bookkeeping fun context : Context World => context.decrement name := by
  intro tensors
  generalize found : (tensors.find? fun registration => registration.name == name).map
    Registration.refcount = count
  have counted : ∀ context : Context World, context.tensors = tensors →
      context.refcount? name = count := by
    intro context held
    rw [← found, ← held]
    rfl
  match count with
  | none =>
    apply (unchanged (.error (.notRegistered name)) tensors).congr
    intro context held
    simp only [Context.decrement, counted context held]
  | some 0 =>
    apply (unchanged (.error (.refcountUnderflow name)) tensors).congr
    intro context held
    simp only [Context.decrement, counted context held]
  | some 1 =>
    apply (release name tensors).congr
    intro context held
    simp only [Context.decrement, counted context held]
  | some (count + 2) =>
    refine ⟨.ok (), tensors.map fun registration =>
      if registration.name = name then { registration with refcount := count + 1 }
      else registration, [], ?_⟩
    intro context held
    simp only [Context.decrement, counted context held, List.map_nil, List.append_nil, ← held]
    rfl

theorem decrementAll (names : List String) :
    Bookkeeping fun context : Context World => context.decrementAll names := by
  induction names with
  | nil => exact unchanged (.ok ())
  | cons name rest ih =>
    intro tensors
    apply ((decrement name).andThen ih tensors).congr
    intro context _
    rw [Context.decrementAll]
    rcases context.decrement name with ⟨error | ⟨⟩, after⟩
    · rfl
    · rfl

theorem releaseUnread (names : List String) :
    Bookkeeping fun context : Context World => (.ok (), context.releaseUnread names) := by
  induction names with
  | nil => exact unchanged (.ok ())
  | cons name rest ih =>
    intro tensors
    by_cases unread : (tensors.find? fun registration => registration.name == name).map
      Registration.refcount = some 0
    · apply ((release name).andThen ih tensors).congr
      intro context held
      rw [← held] at unread
      have step : context.releaseUnread (name :: rest) = (context.release name).releaseUnread rest :=
        congrArg (Context.releaseUnread · rest) (if_pos unread)
      rw [step]
    · apply (ih tensors).congr
      intro context held
      rw [← held] at unread
      have step : context.releaseUnread (name :: rest) = context.releaseUnread rest :=
        congrArg (Context.releaseUnread · rest) (if_neg unread)
      rw [step]

end Bookkeeping

/-! ### The two halves of an evaluation -/

/-- Finds the tensors of an evaluation and runs its kernel. -/
def attempt (context : Context World) (evaluation : Evaluation World) :
    Except ContextError Unit × World :=
  match context.resolve evaluation.inputs, context.resolve evaluation.outputs with
  | .error error, _ => (.error error, context.world)
  | .ok _, .error error => (.error error, context.world)
  | .ok inputs, .ok outputs => evaluation.kernel.execute inputs outputs context.world

/-- Logs an execution and settles the counts of its tensors. -/
def settle (context : Context World) (evaluation : Evaluation World) : Outcome World :=
  match (context.note (.executed evaluation.kernel.name)).decrementAll
      (distinct [] evaluation.inputs) with
  | (.error error, context) => (.error error, context)
  | (.ok (), context) => (.ok (), context.releaseUnread evaluation.outputs)

theorem evaluate_eq (context : Context World) (evaluation : Evaluation World) :
    context.evaluate evaluation =
      match context.attempt evaluation with
      | (.error error, world) => (.error error, { context with world })
      | (.ok (), world) => { context with world }.settle evaluation := by
  unfold evaluate attempt
  cases context.resolve evaluation.inputs with
  | error error => rfl
  | ok inputs =>
    cases context.resolve evaluation.outputs with
    | error error => rfl
    | ok outputs =>
      dsimp only
      rcases evaluation.kernel.execute inputs outputs context.world with ⟨error | ⟨⟩, world⟩
      · rfl
      · rfl

theorem attempt_congr {other : Context World} (tensors : other.tensors = context.tensors)
    (world : other.world = context.world) (evaluation : Evaluation World) :
    other.attempt evaluation = context.attempt evaluation := by
  have lookup : other.lookup = context.lookup := by
    funext name
    rw [Context.lookup, Context.lookup, registration?, registration?, tensors]
  rw [attempt, attempt, resolve, resolve, resolve, resolve, lookup, world]

theorem settle_spec (evaluation : Evaluation World) (tensors : List Registration) :
    ∃ (result : Except ContextError Unit) (left : List Registration) (released : List String),
      ∀ context : Context World, context.tensors = tensors →
        context.settle evaluation = (result, { context with
          tensors := left
          events := context.events ++
            .executed evaluation.kernel.name :: released.map .released }) := by
  have read : Bookkeeping fun context : Context World =>
      context.decrementAll (distinct [] evaluation.inputs) := .decrementAll _
  have ⟨result, left, released, acts⟩ :=
    read.andThen (.releaseUnread evaluation.outputs) tensors
  refine ⟨result, left, released, ?_⟩
  intro context same
  have noted := acts (context.note (.executed evaluation.kernel.name)) same
  rw [note, List.append_assoc] at noted
  exact noted

/-- The evaluation has run. Its execution is logged, and then some releases. -/
structure Ran (context : Context World) (evaluation : Evaluation World)
    (after : Context World) : Prop where
  kernel : context.attempt evaluation = (.ok (), after.world)
  queue : after.queue = context.queue
  phase : after.phase = context.phase
  events : ∃ released : List String, after.events =
    context.events ++ .executed evaluation.kernel.name :: released.map .released

theorem Refuses.attempt_ne_ok {world : World} (refuses : context.Refuses evaluation error world) :
    (context.attempt evaluation).1 ≠ .ok () := by
  unfold attempt
  cases refuses with
  | unregistered listed missing =>
    rcases context.resolve_cases evaluation.inputs with ⟨inputs, readable, read⟩ | ⟨_, _, failed, _⟩
    · rcases context.resolve_cases evaluation.outputs with
        ⟨outputs, writable, written⟩ | ⟨_, _, failed, _⟩
      · rcases List.mem_append.mp listed with reads | writes
        · exact absurd missing (read _ reads)
        · exact absurd missing (written _ writes)
      · rw [readable, failed]
        exact nofun
    · rw [failed]
      exact nofun
  | failed readable writable failure =>
    rw [readable, writable]
    dsimp only
    rw [failure]
    exact nofun

/-- An evaluation is not run and leaves all but the world as it is, or it is run. If it fails then,
one of the tensors that it reads has no unit left. -/
theorem evaluate_cases (context : Context World) (evaluation : Evaluation World) :
    (∃ error world, context.attempt evaluation = (.error error, world) ∧
        context.evaluate evaluation = (.error error, { context with world })) ∨
      context.Ran evaluation (context.evaluate evaluation).2 ∧
        ((context.evaluate evaluation).1 = .ok () ∨
          ∃ name ∈ evaluation.inputs, context.refcount? name = some 0 ∧
            (context.evaluate evaluation).1 = .error (.refcountUnderflow name)) := by
  have unfolded := context.evaluate_eq evaluation
  rcases attempted : context.attempt evaluation with ⟨error | ⟨⟩, world⟩
  · rw [attempted] at unfolded
    exact .inl ⟨error, world, rfl, unfolded⟩
  · rw [attempted] at unfolded
    have ⟨result, left, released, acts⟩ := settle_spec evaluation context.tensors
    have settled := unfolded.trans (acts { context with world } rfl)
    refine .inr ⟨?_, ?_⟩
    · rw [settled]
      exact ⟨attempted, rfl, rfl, released, rfl⟩
    · have spec := context.evaluate_spec evaluation
      generalize context.evaluate evaluation = outcome at spec
      cases spec with
      | settled => exact .inl rfl
      | refused refuses => exact absurd (congrArg Prod.fst attempted) refuses.attempt_ne_ok
      | underflow _ reads zero => exact .inr ⟨_, reads, zero, rfl⟩

/-- What an evaluation does does not depend on what is queued behind it. -/
theorem evaluate_withQueue (context : Context World) (evaluation : Evaluation World)
    (queue : List (Evaluation World)) :
    { context with queue }.evaluate evaluation =
      ((context.evaluate evaluation).1, { (context.evaluate evaluation).2 with queue }) := by
  have same : { context with queue }.attempt evaluation = context.attempt evaluation :=
    attempt_congr rfl rfl evaluation
  rw [evaluate_eq, evaluate_eq, same]
  rcases context.attempt evaluation with ⟨error | ⟨⟩, world⟩
  · rfl
  · have ⟨result, left, released, acts⟩ := settle_spec evaluation context.tensors
    dsimp only
    rw [acts { context with world } rfl, acts { context with queue, world } rfl]

theorem evaluate_phase (context : Context World) (evaluation : Evaluation World) :
    (context.evaluate evaluation).2.phase = context.phase :=
  (context.evaluate_shrinks evaluation).phase

/-! ### Evaluations one after another -/

/-- Runs evaluations that need not be queued, up to the first failure. -/
def evaluateAll (context : Context World) : List (Evaluation World) → Outcome World
  | [] => (.ok (), context)
  | evaluation :: rest =>
    match context.evaluate evaluation with
    | (.error error, after) => (.error error, after)
    | (.ok (), after) => after.evaluateAll rest

theorem evaluateAll_cons_eq_ok :
    context.evaluateAll (evaluation :: rest) = (.ok (), after) ↔
      ∃ middle, context.evaluate evaluation = (.ok (), middle) ∧
        middle.evaluateAll rest = (.ok (), after) := by
  rw [evaluateAll]
  rcases context.evaluate evaluation with ⟨error | ⟨⟩, middle⟩
  · simp
  · simp

theorem evaluateAll_withQueue (ran : context.evaluateAll done = (.ok (), after))
    (queue : List (Evaluation World)) :
    { context with queue }.evaluateAll done = (.ok (), { after with queue }) := by
  induction done generalizing context with
  | nil =>
    cases ran
    rfl
  | cons evaluation rest ih =>
    have ⟨middle, first, others⟩ := evaluateAll_cons_eq_ok.mp ran
    refine evaluateAll_cons_eq_ok.mpr ⟨{ middle with queue }, ?_, ih others⟩
    rw [evaluate_withQueue, first]

theorem evaluateAll_phase (ran : context.evaluateAll done = (.ok (), after)) :
    after.phase = context.phase := by
  induction done generalizing context with
  | nil =>
    cases ran
    rfl
  | cons evaluation rest ih =>
    have ⟨middle, first, others⟩ := evaluateAll_cons_eq_ok.mp ran
    have kept := context.evaluate_phase evaluation
    rw [first] at kept
    exact (ih others).trans kept

/-- All of the evaluations run, or there is a first one that fails. -/
theorem evaluateAll_cases (context : Context World) (queue : List (Evaluation World)) :
    (∃ after, context.evaluateAll queue = (.ok (), after)) ∨
      ∃ done evaluation rest middle error stopped, queue = done ++ evaluation :: rest ∧
        context.evaluateAll done = (.ok (), middle) ∧
        middle.evaluate evaluation = (.error error, stopped) := by
  induction queue generalizing context with
  | nil => exact .inl ⟨context, rfl⟩
  | cons first rest ih =>
    rcases ran : context.evaluate first with ⟨error | ⟨⟩, next⟩
    · exact .inr ⟨[], first, rest, context, error, next, rfl, rfl, ran⟩
    · rcases ih next with
        ⟨after, others⟩ | ⟨done, evaluation, behind, middle, error, stopped, split, others, failed⟩
      · exact .inl ⟨after, evaluateAll_cons_eq_ok.mpr ⟨next, ran, others⟩⟩
      · refine .inr ⟨first :: done, evaluation, behind, middle, error, stopped, ?_,
          evaluateAll_cons_eq_ok.mpr ⟨next, ran, others⟩, failed⟩
        rw [split, List.cons_append]

/-! ### What evaluations leave behind -/

/-- The kernels whose executions a log shows. -/
def executions (log : List Event) : List String :=
  log.filterMap fun
    | .executed name => some name
    | _ => none

/-- The counts of the flushes that a log shows. -/
def flushCounts (log : List Event) : List Nat :=
  log.filterMap fun
    | .flushed count => some count
    | _ => none

theorem executions_append (first second : List Event) :
    executions (first ++ second) = executions first ++ executions second :=
  List.filterMap_append ..

theorem flushCounts_append (first second : List Event) :
    flushCounts (first ++ second) = flushCounts first ++ flushCounts second :=
  List.filterMap_append ..

theorem executions_released (names : List String) : executions (names.map .released) = [] := by
  simp [executions]

theorem flushCounts_released (names : List String) : flushCounts (names.map .released) = [] := by
  simp [flushCounts]

/-- The kernels of the evaluations have run one after another, each of them once and with handles
for its own tensors. -/
inductive Executes : World → List (Evaluation World) → World → Prop
  | nil {world : World} : Executes world [] world
  | cons {before between after : World} {evaluation : Evaluation World}
      {rest : List (Evaluation World)} {inputs outputs : List Handle}
      (reads : inputs.map Handle.name = evaluation.inputs)
      (writes : outputs.map Handle.name = evaluation.outputs)
      (ran : evaluation.kernel.execute inputs outputs before = (.ok (), between))
      (later : Executes between rest after) : Executes before (evaluation :: rest) after

theorem Executes.append {before between after : World} (earlier : Executes before done between)
    (later : Executes between rest after) : Executes before (done ++ rest) after := by
  induction earlier with
  | nil => exact later
  | cons reads writes ran _ ih => exact .cons reads writes ran (ih later)

theorem lookup_name {name : String} {handle : Handle} (found : context.lookup name = .ok handle) :
    handle.name = name := by
  unfold lookup at found
  split at found
  next registration isRegistered =>
    cases found
    show registration.name = name
    simpa using List.find?_some isRegistered
  · cases found

theorem resolve_names {names : List String} {handles : List Handle}
    (found : context.resolve names = .ok handles) : handles.map Handle.name = names := by
  have pairs := forall₂_of_mapM_eq_ok found
  clear found
  induction pairs with
  | nil => rfl
  | cons first _ ih => rw [List.map_cons, lookup_name first, ih]

/-- Kernels that fail are run as well. -/
theorem attempt_cases {world : World}
    (attempted : context.attempt evaluation = (.error error, world)) :
    world = context.world ∨ ∃ inputs outputs,
      evaluation.kernel.execute inputs outputs context.world = (.error error, world) := by
  unfold attempt at attempted
  split at attempted
  · cases attempted
    exact .inl rfl
  · cases attempted
    exact .inl rfl
  · exact .inr ⟨_, _, attempted⟩

theorem Ran.executes (ran : context.Ran evaluation after) :
    Executes context.world [evaluation] after.world := by
  have kernel := ran.kernel
  unfold attempt at kernel
  split at kernel
  · cases kernel
  · cases kernel
  next readable writable =>
    exact .cons (resolve_names readable) (resolve_names writable) kernel .nil

/-- The log and the world show that the evaluations have run. -/
structure Shows (context : Context World) (done : List (Evaluation World)) (log : List Event)
    (after : Context World) : Prop where
  events : after.events = context.events ++ log
  executions : executions log = done.map Evaluation.name
  flushCounts : flushCounts log = []
  executes : Executes context.world done after.world

theorem Ran.shows (ran : context.Ran evaluation after) :
    ∃ log, context.Shows [evaluation] log after := by
  have ⟨released, events⟩ := ran.events
  refine ⟨_, events, ?_, ?_, ran.executes⟩
  · exact congrArg (_ :: ·) (executions_released released)
  · exact flushCounts_released released

theorem Shows.append {first second : List Event} (earlier : context.Shows done first middle)
    (later : middle.Shows rest second after) :
    context.Shows (done ++ rest) (first ++ second) after where
  events := by rw [later.events, earlier.events, List.append_assoc]
  executions := by
    rw [executions_append, earlier.executions, later.executions, List.map_append]
  flushCounts := by rw [flushCounts_append, earlier.flushCounts, later.flushCounts, List.append_nil]
  executes := earlier.executes.append later.executes

theorem evaluateAll_shows (ran : context.evaluateAll done = (.ok (), after)) :
    ∃ log, context.Shows done log after := by
  induction done generalizing context with
  | nil =>
    cases ran
    exact ⟨[], (List.append_nil _).symm, rfl, rfl, .nil⟩
  | cons evaluation rest ih =>
    have ⟨middle, first, others⟩ := evaluateAll_cons_eq_ok.mp ran
    have ⟨second, later⟩ := ih others
    rcases context.evaluate_cases evaluation with ⟨error, world, _, failed⟩ | ⟨ranFirst, _⟩
    · rw [failed] at first
      cases first
    · rw [first] at ranFirst
      have ⟨log, shows⟩ := ranFirst.shows
      exact ⟨log ++ second, shows.append later⟩

/-! ### Flushes -/

/-- The evaluations in front are run as if there were none behind them. -/
theorem drain_append (ran : context.evaluateAll done = (.ok (), after)) (executed : Nat)
    (evaluation : Evaluation World) (rest : List (Evaluation World)) :
    context.drain executed (done ++ evaluation :: rest) =
      after.drain (executed + done.length) (evaluation :: rest) := by
  induction done generalizing context after executed with
  | nil =>
    cases ran
    rfl
  | cons first others ih =>
    have ⟨middle, ranFirst, ranOthers⟩ := evaluateAll_cons_eq_ok.mp ran
    have later := ih (evaluateAll_withQueue ranOthers (others ++ evaluation :: rest)) (executed + 1)
    rw [List.cons_append, drain, evaluate_withQueue, ranFirst, List.length_cons,
      Nat.add_comm others.length, ← Nat.add_assoc]
    exact later

theorem drain_of_evaluateAll (waiting : context.queue = queue)
    (ran : context.evaluateAll queue = (.ok (), after)) (executed : Nat) :
    context.drain executed queue = (.ok (), { after with
      queue := []
      phase := .flushed
      events := after.events ++ [.flushed (executed + queue.length)] }) := by
  induction queue generalizing context after executed with
  | nil =>
    cases ran
    unfold drain note
    rw [waiting]
    rfl
  | cons first rest ih =>
    obtain ⟨middle, ranFirst, ranRest⟩ := evaluateAll_cons_eq_ok.mp ran
    have later := ih rfl (evaluateAll_withQueue ranRest rest) (executed + 1)
    rw [drain, evaluate_withQueue, ranFirst, List.length_cons, Nat.add_comm rest.length,
      ← Nat.add_assoc]
    exact later

theorem drain_of_failed (failed : context.evaluate evaluation = (.error error, stopped))
    (executed : Nat) (rest : List (Evaluation World)) :
    context.drain executed (evaluation :: rest) = (.error error, { stopped with queue := rest }) := by
  rw [drain, evaluate_withQueue, failed]

theorem flush_of_evaluateAll (context : Context World) (running : context.phase ≠ .terminated)
    (ran : context.evaluateAll context.queue = (.ok (), after)) :
    context.flush = (.ok (), { after with
      queue := []
      phase := .flushed
      events := after.events ++ [.flushed context.queue.length] }) := by
  rw [flush, if_neg running, drain_of_evaluateAll rfl ran, Nat.zero_add]

theorem flush_of_failed (running : context.phase ≠ .terminated)
    (split : context.queue = done ++ evaluation :: rest)
    (ran : context.evaluateAll done = (.ok (), middle))
    (failed : middle.evaluate evaluation = (.error error, stopped)) :
    context.flush = (.error error, { stopped with queue := rest }) := by
  rw [flush, if_neg running, split, drain_append ran, drain_of_failed failed]

/-- A flush of a running context comes to its end, or it stops at the first evaluation that
fails. -/
theorem flush_cases (context : Context World) (running : context.phase ≠ .terminated) :
    (∃ after, context.evaluateAll context.queue = (.ok (), after) ∧
      context.flush = (.ok (), { after with
        queue := []
        phase := .flushed
        events := after.events ++ [.flushed context.queue.length] })) ∨
    ∃ done evaluation rest middle error stopped, context.queue = done ++ evaluation :: rest ∧
      context.evaluateAll done = (.ok (), middle) ∧
      middle.evaluate evaluation = (.error error, stopped) ∧
      context.flush = (.error error, { stopped with queue := rest }) := by
  rcases context.evaluateAll_cases context.queue with
    ⟨after, ran⟩ | ⟨done, evaluation, rest, middle, error, stopped, split, ran, failed⟩
  · exact .inl ⟨after, ran, flush_of_evaluateAll context running ran⟩
  · exact .inr ⟨done, evaluation, rest, middle, error, stopped, split, ran, failed,
      flush_of_failed running split ran failed⟩

end Context

end TensorArena
