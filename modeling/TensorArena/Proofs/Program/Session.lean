import TensorArena.Program.Execution
import TensorArena.Program.Session
import TensorArena.Proofs.Arena.Addresses
import TensorArena.Proofs.Program.Registry

/-!
# Sessions

Whatever is asked of a context, and whether or not it succeeds, the registered tensors share no
address, evaluations wait only in a populated context, an empty context has seen nothing, and a
terminated one stays as it is.
-/

set_option autoImplicit false

namespace TensorArena

namespace Context

variable {World : Type} {context middle after : Context World}

/-- The registered tensors as kernels see them. -/
def handles (context : Context World) : List Handle :=
  context.tensors.map Registration.handle

/-! ### Letting tensors go -/

/-- Some tensors may be gone and counts may differ, but nothing is registered anew. -/
structure Shrinks (context after : Context World) : Prop where
  handles : after.handles.Sublist context.handles
  queue : after.queue = context.queue
  phase : after.phase = context.phase

namespace Shrinks

theorem refl (context : Context World) : context.Shrinks context :=
  ⟨List.Sublist.refl _, rfl, rfl⟩

theorem trans (first : context.Shrinks middle) (second : middle.Shrinks after) :
    context.Shrinks after where
  handles := second.handles.trans first.handles
  queue := second.queue.trans first.queue
  phase := second.phase.trans first.phase

end Shrinks

theorem release_shrinks (context : Context World) (name : String) :
    context.Shrinks (context.release name) := by
  unfold release
  split
  · exact ⟨List.filter_sublist.map _, rfl, rfl⟩
  · exact Shrinks.refl context

theorem setRefcount_shrinks (context : Context World) (name : String) (refcount : Nat) :
    context.Shrinks (context.setRefcount name refcount) := by
  have same : (context.setRefcount name refcount).handles = context.handles := by
    unfold handles setRefcount
    rw [List.map_map]
    apply List.map_congr_left
    intro registration _
    dsimp only [Function.comp]
    split <;> rfl
  exact ⟨same ▸ List.Sublist.refl _, rfl, rfl⟩

theorem decrement_shrinks (context : Context World) (name : String) :
    context.Shrinks (context.decrement name).2 := by
  unfold decrement
  split
  · exact Shrinks.refl context
  · exact Shrinks.refl context
  · exact release_shrinks context name
  · exact setRefcount_shrinks context name _

theorem decrementAll_shrinks (context : Context World) (names : List String) :
    context.Shrinks (context.decrementAll names).2 := by
  induction names generalizing context with
  | nil => exact Shrinks.refl context
  | cons name rest ih =>
    have first := context.decrement_shrinks name
    unfold decrementAll
    split
    next middle taken =>
      rw [taken] at first
      exact first.trans (ih middle)
    next error middle failed =>
      rw [failed] at first
      exact first

theorem releaseUnread_shrinks (context : Context World) (names : List String) :
    context.Shrinks (context.releaseUnread names) := by
  unfold releaseUnread
  induction names generalizing context with
  | nil => exact Shrinks.refl context
  | cons name rest ih =>
    rw [List.foldl_cons]
    split
    · exact (context.release_shrinks name).trans (ih _)
    · exact ih context

theorem evaluate_shrinks (context : Context World) (evaluation : Evaluation World) :
    context.Shrinks (context.evaluate evaluation).2 := by
  have ran (world : World) (event : Event) :
      context.Shrinks ({ context with world }.note event) :=
    ⟨List.Sublist.refl _, rfl, rfl⟩
  unfold evaluate
  split
  · exact Shrinks.refl context
  · exact Shrinks.refl context
  · split
    · exact ⟨List.Sublist.refl _, rfl, rfl⟩
    next world _ =>
      have read := decrementAll_shrinks
        ({ context with world }.note (.executed evaluation.kernel.name))
        (distinct [] evaluation.inputs)
      dsimp only
      split
      next failed =>
        rw [failed] at read
        exact (ran world _).trans read
      next middle taken =>
        rw [taken] at read
        exact ((ran world _).trans read).trans (releaseUnread_shrinks _ _)

theorem drain_handles (context : Context World) (executed : Nat)
    (queue : List (Evaluation World)) :
    (context.drain executed queue).2.handles.Sublist context.handles := by
  induction queue generalizing context executed with
  | nil => exact List.Sublist.refl _
  | cons evaluation rest ih =>
    have step := (evaluate_shrinks { context with queue := rest } evaluation).handles
    unfold drain
    split
    next failed =>
      rw [failed] at step
      exact step
    next middle ran =>
      rw [ran] at step
      exact (ih middle (executed + 1)).trans step

theorem flush_handles (context : Context World) :
    context.flush.2.handles.Sublist context.handles := by
  unfold flush
  split
  · exact List.Sublist.refl _
  · exact context.drain_handles 0 context.queue

theorem enqueue_handles (context : Context World) (evaluation : Evaluation World) :
    (context.enqueue evaluation).2.handles = context.handles := by
  unfold enqueue
  split
  · rfl
  · split <;> rfl

/-- A registration adds one tensor at most. -/
theorem mem_register_handles {name : String} {storage : Storage} {refcount : Nat} {handle : Handle}
    (member : handle ∈ (context.register name storage refcount).2.handles) :
    handle ∈ context.handles ∨ handle = ⟨name, storage⟩ := by
  unfold register at member
  split at member
  · exact .inl member
  · split at member
    · exact .inl member
    · split at member
      · exact .inl member
      · simpa [handles, Registration.handle] using member

/-! ### The invariant -/

/-- What holds of a context between two requests. -/
structure Consistent (context : Context World) : Prop where
  apart : context.handles.Pairwise fun first second =>
    first.name ≠ second.name ∧ first.storage.overlaps second.storage = false
  pending : context.queue ≠ [] → context.phase = .populated
  unused : context.phase = .empty →
    context.tensors = [] ∧ context.queue = [] ∧ context.events = []

namespace Consistent

theorem initial (world : World) : Consistent { world } where
  apart := .nil
  pending := fun pending => absurd rfl pending
  unused := fun _ => ⟨rfl, rfl, rfl⟩

theorem queue_eq_nil (consistent : context.Consistent) (idle : context.phase ≠ .populated) :
    context.queue = [] := by
  by_contra pending
  exact idle (consistent.pending pending)

theorem shrinks (consistent : context.Consistent) (used : context.phase ≠ .empty)
    (shrinks : context.Shrinks after) : after.Consistent where
  apart := consistent.apart.sublist shrinks.handles
  pending := by
    rw [shrinks.queue, shrinks.phase]
    exact consistent.pending
  unused := by
    rw [shrinks.phase]
    intro unused
    exact absurd unused used

theorem register (consistent : context.Consistent) (name : String) (storage : Storage)
    (refcount : Nat) : (context.register name storage refcount).2.Consistent := by
  unfold Context.register
  split
  · exact consistent
  · split
    · exact consistent
    next fresh =>
      split
      · exact consistent
      next free =>
        refine ⟨?_, fun _ => rfl, nofun⟩
        show ((context.tensors ++ [_]).map Registration.handle).Pairwise _
        rw [List.map_append, List.pairwise_append]
        refine ⟨consistent.apart, List.pairwise_singleton _ _, ?_⟩
        intro handle member added same
        have ⟨registration, registered, isHandle⟩ := List.mem_map.mp member
        rw [List.mem_singleton.mp same, ← isHandle]
        constructor
        · intro named
          apply fresh
          rw [isRegistered, Context.registration?, List.find?_isSome]
          exact ⟨registration, registered, beq_iff_eq.mpr named⟩
        · exact conflict?_eq_none_iff.mp free registration registered

theorem enqueue (consistent : context.Consistent) (evaluation : Evaluation World) :
    (context.enqueue evaluation).2.Consistent := by
  unfold Context.enqueue
  split
  · exact consistent
  · split
    · exact consistent
    · exact ⟨consistent.apart, fun _ => rfl, nofun⟩

/-- The evaluations that are left stay those of the queue, so a drain that stops leaves the context
populated as long as any of them waits. -/
theorem drain (consistent : context.Consistent) (executed : Nat) :
    (context.drain executed context.queue).2.Consistent ∧
      ((context.drain executed context.queue).1 = .ok () →
        (context.drain executed context.queue).2.phase = .flushed) := by
  generalize waiting : context.queue = queue
  induction queue generalizing context executed with
  | nil =>
    refine ⟨⟨consistent.apart, ?_, nofun⟩, fun _ => rfl⟩
    intro pending
    exact absurd waiting pending
  | cons evaluation rest ih =>
    have populated : context.phase = .populated := by
      apply consistent.pending
      rw [waiting]
      exact List.cons_ne_nil _ _
    have used : context.phase ≠ .empty := by
      rw [populated]
      exact Phase.noConfusion
    have taken : Consistent { context with queue := rest } :=
      ⟨consistent.apart, fun _ => populated, fun unused => absurd unused used⟩
    have step := evaluate_shrinks { context with queue := rest } evaluation
    unfold Context.drain
    split
    next failed =>
      rw [failed] at step
      exact ⟨taken.shrinks used step, nofun⟩
    next next ran =>
      rw [ran] at step
      exact ih (taken.shrinks used step) (executed + 1) step.queue

theorem flush (consistent : context.Consistent) :
    context.flush.2.Consistent ∧
      (context.flush.1 = .ok () → context.flush.2.phase = .flushed) := by
  unfold Context.flush
  split
  · exact ⟨consistent, nofun⟩
  · exact consistent.drain 0

theorem finish (consistent : context.Consistent) (outputs : List String) :
    (context.finish outputs).2.Consistent := by
  have flushed := consistent.flush
  unfold Context.finish
  split
  next failed =>
    rw [failed] at flushed
    exact flushed.1
  next middle ran =>
    rw [ran] at flushed
    have phase : middle.phase = .flushed := flushed.2 rfl
    have used : middle.phase ≠ .empty := by
      rw [phase]
      exact Phase.noConfusion
    have idle : middle.queue = [] := flushed.1.queue_eq_nil (by
      rw [phase]
      exact Phase.noConfusion)
    have given := middle.decrementAll_shrinks outputs
    have kept := flushed.1.shrinks used given
    split
    next failed =>
      rw [failed] at kept
      exact kept
    next last taken =>
      rw [taken] at kept given
      have ended : Consistent { last with phase := .terminated } := by
        refine ⟨kept.apart, ?_, nofun⟩
        intro pending
        exact absurd (given.queue.trans idle) pending
      dsimp only
      split
      · exact ended
      · exact ended

theorem perform (consistent : context.Consistent) (request : Request World) :
    (context.perform request).2.Consistent := by
  cases request with
  | register name storage refcount => exact consistent.register name storage refcount
  | enqueue evaluation => exact consistent.enqueue evaluation
  | flush => exact consistent.flush.1
  | finish outputs => exact consistent.finish outputs

theorem performAll (consistent : context.Consistent) (requests : List (Request World)) :
    (context.performAll requests).Consistent := by
  induction requests generalizing context with
  | nil => exact consistent
  | cons request rest ih => exact ih (consistent.perform request)

end Consistent

/-! ### Terminated contexts -/

theorem perform_of_terminated (terminated : context.phase = .terminated)
    (request : Request World) : context.perform request = (.error .terminated, context) := by
  have flush : context.flush = (.error .terminated, context) := if_pos terminated
  cases request with
  | register name storage refcount => exact if_pos terminated
  | enqueue evaluation => exact if_pos terminated
  | flush => exact flush
  | finish outputs =>
    show context.finish outputs = _
    rw [finish, flush]

theorem performAll_of_terminated (terminated : context.phase = .terminated)
    (requests : List (Request World)) : context.performAll requests = context := by
  induction requests with
  | nil => rfl
  | cons request rest ih =>
    show (context.perform request).2.performAll rest = context
    rw [perform_of_terminated terminated]
    exact ih

/-- What a session leaves behind. No two registered tensors have the same name or share an address.
Evaluations wait only in a populated context. An empty context holds no tensor and no evaluation
and has logged nothing. In a terminated context no evaluation waits, every request is turned down
and nothing changes any more. -/
theorem session_consistent (world : World) (requests : List (Request World)) :
    let context := performAll { world } requests
    (context.tensors.Pairwise fun first second => first.name ≠ second.name ∧
        ∀ address, ¬ (first.storage.Covers address ∧ second.storage.Covers address)) ∧
      (context.queue ≠ [] → context.phase = .populated) ∧
      (context.phase = .empty →
        context.tensors = [] ∧ context.queue = [] ∧ context.events = []) ∧
      (context.phase = .terminated →
        context.queue = [] ∧
        (∀ request, context.perform request = (.error .terminated, context)) ∧
        ∀ later, context.performAll later = context) := by
  intro context
  have consistent : context.Consistent := (Consistent.initial world).performAll requests
  refine ⟨?_, consistent.pending, consistent.unused, ?_⟩
  · have apart := List.pairwise_map.mp consistent.apart
    refine apart.imp fun {first second} ⟨named, separate⟩ => ⟨named, ?_⟩
    intro address covered
    have overlap := (Storage.overlaps_iff _ _).mpr ⟨address, covered⟩
    exact Bool.false_ne_true (separate.symm.trans overlap)
  · intro terminated
    have idle : context.queue = [] := consistent.queue_eq_nil (by
      rw [terminated]
      exact Phase.noConfusion)
    exact ⟨idle, perform_of_terminated terminated, performAll_of_terminated terminated⟩

/-- A session in which one registration and the end fail. -/
def leakingSession : List (Request Unit) :=
  [.register "a" (.arena 0 4) 1, .register "b" (.arena 2 4) 1, .register "c" (.arena 4 4) 2,
    .enqueue ⟨.idle Unit "copy", ["a"], ["c"]⟩, .finish ["c"]]

theorem leakingSession_consistent :
    let context := performAll { world := () } leakingSession
    context.phase = .terminated ∧ context.tensors = [⟨"c", .arena 4 4, 1⟩] ∧
      context.queue = [] ∧ ∀ later, context.performAll later = context := by
  intro context
  have ended : context.phase = .terminated := by decide +kernel
  have ⟨idle, _, unchanged⟩ := (session_consistent () leakingSession).2.2.2 ended
  exact ⟨ended, by decide +kernel, idle, unchanged⟩

end Context

/-- An execution goes on with the context after a call that succeeds. -/
theorem Execution.withOutcome_eq_ok {World : Type} {execution middle : Execution World}
    {outcome : Outcome World} (success : execution.withOutcome outcome = .ok middle) :
    outcome.1 = .ok () ∧ middle = { execution with context := outcome.2 } := by
  obtain ⟨result, context⟩ := outcome
  cases result with
  | error error => cases success
  | ok done => exact ⟨rfl, (Except.ok.inj success).symm⟩

end TensorArena
