import TensorArena.Proofs.Program.Draining

/-!
# Failures of a context

A request that fails leaves a context that is known. A registration or an enqueueing that fails
leaves it as it was. A flush that fails because an evaluation cannot be run leaves what a flush of
the evaluations before that one leaves, without its last event, and keeps those behind it.
-/

set_option autoImplicit false

namespace TensorArena

namespace Context

variable {World : Type} {context after alone middle : Context World}
  {evaluation : Evaluation World} {done rest : List (Evaluation World)} {error : ContextError}

theorem register_error (context : Context World) (name : String) (storage : Storage)
    (refcount : Nat) (failed : context.register name storage refcount = (.error error, after)) :
    after = context := by
  rcases context.register_cases name storage refcount with ⟨other, unchanged⟩ | ⟨_, registered⟩
  · exact (Prod.mk.inj (failed.symm.trans unchanged)).2
  · cases failed.symm.trans registered

theorem enqueue_error (context : Context World) (evaluation : Evaluation World)
    (failed : context.enqueue evaluation = (.error error, after)) : after = context := by
  rcases context.enqueue_cases evaluation with ⟨other, unchanged⟩ | enqueued
  · exact (Prod.mk.inj (failed.symm.trans unchanged)).2
  · cases failed.symm.trans enqueued

theorem flush_alone (running : context.phase ≠ .terminated)
    (ran : context.evaluateAll done = (.ok (), middle)) :
    { context with queue := done }.flush = (.ok (), { middle with
      queue := []
      phase := .flushed
      events := middle.events ++ [.flushed done.length] }) := by
  have alone := evaluateAll_withQueue ran done
  have flushed := flush_of_evaluateAll { context with queue := done } running alone
  exact flushed

/-- A flush of some evaluations that succeeds has run all of them. -/
theorem flush_alone_eq_ok (flushed : { context with queue := done }.flush = (.ok (), alone)) :
    context.phase ≠ .terminated ∧ ∃ middle, context.evaluateAll done = (.ok (), middle) ∧
      alone = { middle with
        queue := []
        phase := .flushed
        events := middle.events ++ [.flushed done.length] } := by
  have running : context.phase ≠ .terminated := by
    intro terminated
    have refused : { context with queue := done }.flush = (.error .terminated, _) :=
      if_pos terminated
    cases flushed.symm.trans refused
  refine ⟨running, ?_⟩
  rcases flush_cases { context with queue := done } running with
    ⟨after, ran, result⟩ | ⟨_, _, _, _, _, _, _, _, _, result⟩
  · exact ⟨_, evaluateAll_withQueue ran context.queue,
      (Prod.mk.inj (flushed.symm.trans result)).2⟩
  · cases flushed.symm.trans result

/-- If the evaluations in front can be flushed and the next one cannot be run after that, then the
flush stops there. -/
theorem flush_of_refused (split : context.queue = done ++ evaluation :: rest)
    (flushed : { context with queue := done }.flush = (.ok (), alone))
    (refused : (alone.attempt evaluation).1 = .error error) :
    ∃ log, alone.events = context.events ++ log ++ [.flushed done.length] ∧ flushCounts log = [] ∧
      context.flush = (.error error, { alone with
        queue := rest
        phase := context.phase
        events := context.events ++ log
        world := (alone.attempt evaluation).2 }) := by
  have ⟨running, middle, ran, left⟩ := flush_alone_eq_ok flushed
  have ⟨log, shows⟩ := evaluateAll_shows ran
  have same : alone.attempt evaluation = middle.attempt evaluation := by
    rw [left]
    exact attempt_congr rfl rfl evaluation
  rw [same] at refused ⊢
  have failed := middle.evaluate_eq evaluation
  rcases attempted : middle.attempt evaluation with ⟨result, world⟩
  rw [attempted] at refused failed
  cases refused
  refine ⟨log, by rw [left, shows.events], shows.flushCounts, ?_⟩
  rw [flush_of_failed running split ran failed, ← shows.events, ← evaluateAll_phase ran, left]

/-- A flush that stops has flushed what is in front of the evaluation that it stops at. That one
cannot be run, or it has run and a tensor that it reads has no unit left. -/
theorem flush_eq_error (running : context.phase ≠ .terminated)
    (stopped : context.flush = (.error error, after)) :
    ∃ done evaluation alone, context.queue = done ++ evaluation :: after.queue ∧
      { context with queue := done }.flush = (.ok (), alone) ∧
      ((alone.attempt evaluation).1 = .error error ∨
        (alone.attempt evaluation).1 = .ok () ∧ ∃ name ∈ evaluation.inputs,
          alone.refcount? name = some 0 ∧ error = .refcountUnderflow name) := by
  rcases context.flush_cases running with
    ⟨_, _, result⟩ | ⟨done, evaluation, rest, middle, other, last, split, ran, failed, result⟩
  · cases stopped.symm.trans result
  · have ⟨same, left⟩ := Prod.mk.inj (stopped.symm.trans result)
    cases same
    refine ⟨done, evaluation, _, by rw [left]; exact split, flush_alone running ran, ?_⟩
    show (middle.attempt evaluation).1 = _ ∨ (middle.attempt evaluation).1 = _ ∧ _
    rcases middle.evaluate_cases evaluation with
      ⟨error, world, attempted, unrun⟩ | ⟨kept, finished | ⟨name, reads, none, overdrawn⟩⟩
    · cases failed.symm.trans unrun
      exact .inl (congrArg Prod.fst attempted)
    · rw [failed] at finished
      cases finished
    · rw [failed] at overdrawn
      exact .inr ⟨congrArg Prod.fst kept.kernel, name, reads, none, Except.error.inj overdrawn⟩

/-- What requests that fail leave behind. A registration and an enqueueing leave the context as it
was. If the evaluations in front of the queue can be flushed alone, and the tensors of the next one
are then not found or its kernel fails, the flush of the whole queue fails with that error. It
leaves the tensors and the events of the flush alone, but no event of a flush and the phase that was
there before, and the evaluations behind the one that has failed are still queued. A flush of a
running context has no other way to fail than this, except that an evaluation has run which reads a
tensor without a unit. -/
theorem failures_leave_shorter_flush (context : Context World) :
    (∀ name storage refcount error after,
      context.register name storage refcount = (.error error, after) → after = context) ∧
    (∀ evaluation error after,
      context.enqueue evaluation = (.error error, after) → after = context) ∧
    (∀ done evaluation rest error alone, context.queue = done ++ evaluation :: rest →
      { context with queue := done }.flush = (.ok (), alone) →
      (alone.attempt evaluation).1 = .error error →
      ∃ log, alone.events = context.events ++ log ++ [.flushed done.length] ∧
        flushCounts log = [] ∧
        context.flush = (.error error, { alone with
          queue := rest
          phase := context.phase
          events := context.events ++ log
          world := (alone.attempt evaluation).2 })) ∧
    ∀ error after, context.phase ≠ .terminated → context.flush = (.error error, after) →
      ∃ done evaluation alone, context.queue = done ++ evaluation :: after.queue ∧
        { context with queue := done }.flush = (.ok (), alone) ∧
        ((alone.attempt evaluation).1 = .error error ∨
          (alone.attempt evaluation).1 = .ok () ∧ ∃ name ∈ evaluation.inputs,
            alone.refcount? name = some 0 ∧ error = .refcountUnderflow name) :=
  ⟨fun name storage refcount _ _ => register_error context name storage refcount,
    fun evaluation _ _ => enqueue_error context evaluation,
    fun _ _ _ _ _ => flush_of_refused, fun _ _ => flush_eq_error⟩

/-- Three evaluations read one tensor, for which two units were granted. The second one takes the
last unit, so the third does not find the tensor any more. -/
def exhaustedContext : Context Unit where
  tensors := [⟨"x", .arena 0 4, 2⟩, ⟨"y", .arena 4 4, 1⟩]
  queue := [⟨.idle Unit "first", ["x"], ["y"]⟩, ⟨.idle Unit "second", ["x"], ["y"]⟩,
    ⟨.idle Unit "third", ["x"], ["y"]⟩, ⟨.idle Unit "fourth", ["y"], []⟩]
  phase := .populated
  events := [.registered "x" 2, .registered "y" 1, .enqueued "first", .enqueued "second",
    .enqueued "third", .enqueued "fourth"]
  world := ()

theorem exhaustedContext_leaves_shorter_flush :
    let alone := { exhaustedContext with queue := exhaustedContext.queue.take 2 }.flush
    let after := exhaustedContext.flush
    alone.1 = .ok () ∧ alone.2.tensors = [⟨"y", .arena 4 4, 1⟩] ∧
      alone.2.events = exhaustedContext.events ++
        [.executed "first", .executed "second", .released "x", .flushed 2] ∧
      after.1 = .error (.notRegistered "x") ∧ after.2.tensors = alone.2.tensors ∧
      after.2.queue = exhaustedContext.queue.drop 3 ∧ after.2.phase = .populated ∧
      after.2.events ++ [.flushed 2] = alone.2.events := by
  intro alone after
  have success : alone.1 = .ok () := by decide +kernel
  have ⟨log, events, _, failed⟩ := (failures_leave_shorter_flush exhaustedContext).2.2.1
    (exhaustedContext.queue.take 2) ⟨.idle Unit "third", ["x"], ["y"]⟩
    (exhaustedContext.queue.drop 3) (.notRegistered "x") alone.2 rfl (Prod.ext success rfl)
    (by decide +kernel)
  have result : after = _ := failed
  rw [result]
  exact ⟨success, by decide +kernel, by decide +kernel, rfl, rfl, rfl, rfl, events.symm⟩

end Context

end TensorArena
