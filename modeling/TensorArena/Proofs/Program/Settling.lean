import TensorArena.Proofs.Program.Registry
import TensorArena.Proofs.Results

/-!
# Settling the counts of an evaluation

An evaluation that runs takes one unit from the count of each tensor that it reads and releases
those whose last unit it took, and then those of its outputs whose count is zero. One that does not
run changes nothing but the world.
-/

set_option autoImplicit false

namespace TensorArena

namespace Context

variable {World : Type} {context middle after : Context World} {name : String}

/-! ### The counts -/

theorem refcount?_release (context : Context World) (name other : String) :
    (context.release name).refcount? other =
      if other = name then none else context.refcount? other := by
  unfold refcount?
  rw [registration?_release]
  split <;> rfl

theorem refcount?_setRefcount {count : Nat} (found : context.refcount? name = some count)
    (left : Nat) (other : String) :
    (context.setRefcount name left).refcount? other =
      if other = name then some left else context.refcount? other := by
  unfold refcount? at found ⊢
  obtain ⟨registration, isRegistered, _⟩ := Option.map_eq_some_iff.mp found
  rw [registration?_setRefcount, isRegistered]
  split <;> rfl

theorem release_logs {count : Nat} (found : context.refcount? name = some count) :
    context.Logs [.released name] (context.release name) := by
  unfold refcount? at found
  obtain ⟨registration, isRegistered, _⟩ := Option.map_eq_some_iff.mp found
  exact release_eq context isRegistered

theorem refcount?_eq_none_iff : context.refcount? name = none ↔ context.registration? name = none :=
  Option.map_eq_none_iff

theorem isRegistered_eq_false_iff :
    context.isRegistered name = false ↔ context.refcount? name = none := by
  simp [isRegistered, refcount?]

theorem Logs.queue {log : List Event} (logs : context.Logs log after) :
    after.queue = context.queue := by
  rw [logs]

theorem Logs.phase {log : List Event} (logs : context.Logs log after) :
    after.phase = context.phase := by
  rw [logs]

theorem Logs.events {log : List Event} (logs : context.Logs log after) :
    after.events = context.events ++ log := by
  rw [logs]

/-! ### Registering and enqueueing -/

theorem refcount?_of_append {added : Registration}
    (appended : after.tensors = context.tensors ++ [added])
    (fresh : context.refcount? added.name = none) (other : String) :
    after.refcount? other =
      if other = added.name then some added.refcount else context.refcount? other := by
  have same : after.registration? other =
      { context with tensors := context.tensors ++ [added] }.registration? other := by
    unfold registration?
    rw [appended]
  unfold refcount?
  rw [same, registration?_append context added (refcount?_eq_none_iff.mp fresh)]
  split <;> rfl

/-- A registration fails and changes nothing, or it adds a tensor that was not registered. -/
theorem register_cases (context : Context World) (name : String) (storage : Storage)
    (refcount : Nat) :
    (∃ error, context.register name storage refcount = (.error error, context)) ∨
      context.refcount? name = none ∧
        context.register name storage refcount = (.ok (), { context with
          tensors := context.tensors ++ [⟨name, storage, refcount⟩]
          phase := .populated
          events := context.events ++ [.registered name refcount] }) := by
  unfold register
  split
  · exact .inl ⟨_, rfl⟩
  · split
    · exact .inl ⟨_, rfl⟩
    next fresh =>
      have unregistered := isRegistered_eq_false_iff.mp (Bool.eq_false_iff.mpr fresh)
      split
      · exact .inl ⟨_, rfl⟩
      · exact .inr ⟨unregistered, rfl⟩

theorem enqueue_cases (context : Context World) (evaluation : Evaluation World) :
    (∃ error, context.enqueue evaluation = (.error error, context)) ∨
      context.enqueue evaluation = (.ok (), { context with
        queue := context.queue ++ [evaluation]
        phase := .populated
        events := context.events ++ [.enqueued evaluation.kernel.name] }) := by
  unfold enqueue
  split
  · exact .inl ⟨_, rfl⟩
  · split
    · exact .inl ⟨_, rfl⟩
    · exact .inr rfl

/-! ### Reading -/

/-- Each of the names has lost a unit, and those released have lost their last. -/
structure Spends (context : Context World) (names released : List String)
    (after : Context World) : Prop where
  logs : context.Logs (released.map .released) after
  held : ∀ name ∈ names, ∃ left, context.refcount? name = some (left + 1)
  mem_released_iff : ∀ name, name ∈ released ↔ name ∈ names ∧ context.refcount? name = some 1
  counts : ∀ name, after.refcount? name =
    if name ∈ released then none
    else if name ∈ names then (context.refcount? name).map (· - 1)
    else context.refcount? name

namespace Spends

variable {first second names firstReleased secondReleased released : List String}

theorem refl (context : Context World) : context.Spends [] [] context where
  logs := Logs.refl context
  held := by simp
  mem_released_iff := by simp
  counts := by simp

theorem counts_of_not_mem (spends : context.Spends names released after)
    (unread : name ∉ names) : after.refcount? name = context.refcount? name := by
  have kept : name ∉ released := fun gone => unread ((spends.mem_released_iff name).mp gone).1
  rw [spends.counts, if_neg kept, if_neg unread]

theorem append (earlier : context.Spends first firstReleased middle)
    (later : middle.Spends second secondReleased after)
    (disjoint : ∀ name ∈ second, name ∉ first) :
    context.Spends (first ++ second) (firstReleased ++ secondReleased) after where
  logs := by
    rw [List.map_append]
    exact earlier.logs.trans later.logs
  held := by
    intro name member
    rcases List.mem_append.mp member with early | late
    · exact earlier.held name early
    · rw [← earlier.counts_of_not_mem (disjoint name late)]
      exact later.held name late
  mem_released_iff := by
    intro name
    have late : name ∈ second →
        (middle.refcount? name = some 1 ↔ context.refcount? name = some 1) := fun member => by
      rw [earlier.counts_of_not_mem (disjoint name member)]
    simp only [List.mem_append, earlier.mem_released_iff, later.mem_released_iff]
    constructor
    · rintro (⟨member, one⟩ | ⟨member, one⟩)
      · exact ⟨.inl member, one⟩
      · exact ⟨.inr member, (late member).mp one⟩
    · rintro ⟨member | member, one⟩
      · exact .inl ⟨member, one⟩
      · exact .inr ⟨member, (late member).mpr one⟩
  counts := by
    intro name
    by_cases late : name ∈ second
    · have early := disjoint name late
      have kept : name ∉ firstReleased := fun gone =>
        early ((earlier.mem_released_iff name).mp gone).1
      rw [later.counts, earlier.counts_of_not_mem early]
      simp only [List.mem_append, kept, late, or_true, false_or, ↓reduceIte]
    · have kept : name ∉ secondReleased := fun gone =>
        late ((later.mem_released_iff name).mp gone).1
      rw [later.counts_of_not_mem late, earlier.counts]
      simp only [List.mem_append, kept, late, or_false]

end Spends

theorem decrement_spends {left : Nat} (found : context.refcount? name = some (left + 1)) :
    ∃ after, context.decrement name = (.ok (), after) ∧
      context.Spends [name] (if left = 0 then [name] else []) after := by
  have held : ∀ other ∈ [name], ∃ left, context.refcount? other = some (left + 1) := by
    intro other same
    rw [List.mem_singleton.mp same]
    exact ⟨left, found⟩
  cases left with
  | zero =>
    refine ⟨context.release name, by rw [decrement, found], release_logs found, held, ?_, ?_⟩
    · intro other
      rw [if_pos rfl, List.mem_singleton]
      constructor
      · intro same
        exact ⟨same, same ▸ found⟩
      · exact And.left
    · intro other
      rw [refcount?_release, if_pos rfl]
      by_cases same : other = name
      · simp [same]
      · simp [same]
  | succ left =>
    refine ⟨context.setRefcount name (left + 1), by rw [decrement, found], ?_, held, ?_, ?_⟩
    · rw [if_neg (Nat.succ_ne_zero left), Logs, List.map_nil, List.append_nil]
      rfl
    · intro other
      rw [if_neg (Nat.succ_ne_zero left), List.mem_singleton]
      constructor
      · intro gone
        cases gone
      · intro ⟨same, one⟩
        rw [same, found] at one
        cases one
    · intro other
      rw [refcount?_setRefcount found, if_neg (Nat.succ_ne_zero left)]
      by_cases same : other = name
      · simp [same, found]
      · simp [same]

/-- Registered tensors lose a unit each, unless one of them has none. -/
theorem decrementAll_cases (context : Context World) {names : List String}
    (distinct : names.Nodup) (registered : ∀ name ∈ names, context.refcount? name ≠ none) :
    (∃ released after, context.decrementAll names = (.ok (), after) ∧
      context.Spends names released after) ∨
    ∃ name ∈ names, context.refcount? name = some 0 ∧ ∃ (released : List String) (after : _),
      context.decrementAll names = (.error (.refcountUnderflow name), after) ∧
        context.Logs (released.map .released) after := by
  induction names generalizing context with
  | nil => exact .inl ⟨[], context, rfl, Spends.refl context⟩
  | cons name rest ih =>
    have new : ∀ other ∈ rest, other ∉ [name] := by
      intro other member same
      exact (List.nodup_cons.mp distinct).1 (List.mem_singleton.mp same ▸ member)
    cases found : context.refcount? name with
    | none => exact absurd found (registered name (List.mem_cons_self ..))
    | some count =>
      cases count with
      | zero =>
        refine .inr ⟨name, List.mem_cons_self .., found, [], context, ?_, Logs.refl context⟩
        simp only [decrementAll, decrement, found]
      | succ left =>
        have ⟨middle, taken, spends⟩ := decrement_spends found
        have unfolded : context.decrementAll (name :: rest) = middle.decrementAll rest := by
          simp only [decrementAll, taken]
        have same : ∀ other ∈ rest, middle.refcount? other = context.refcount? other :=
          fun other member => spends.counts_of_not_mem (new other member)
        have known : ∀ other ∈ rest, middle.refcount? other ≠ none := fun other member => by
          rw [same other member]
          exact registered other (List.mem_cons_of_mem _ member)
        rw [unfolded]
        rcases ih middle (List.nodup_cons.mp distinct).2 known with
          ⟨released, after, settled, others⟩ | ⟨other, member, zero, released, after, failed, logs⟩
        · exact .inl ⟨_, after, settled, spends.append others new⟩
        · rw [same other member] at zero
          refine .inr ⟨other, List.mem_cons_of_mem _ member, zero,
            (if left = 0 then [name] else []) ++ released, after, failed, ?_⟩
          rw [List.map_append]
          exact spends.logs.trans logs

/-! ### Writing -/

/-- Those of the names that are registered with count zero are released. -/
theorem releaseUnread_spec (context : Context World) (names : List String) :
    ∃ released : List String,
      context.Logs (released.map .released) (context.releaseUnread names) ∧
      (∀ name, name ∈ released ↔ name ∈ names ∧ context.refcount? name = some 0) ∧
      ∀ name, (context.releaseUnread names).refcount? name =
        if name ∈ released then none else context.refcount? name := by
  induction names generalizing context with
  | nil => exact ⟨[], Logs.refl context, by simp, by simp [releaseUnread]⟩
  | cons name rest ih =>
    by_cases zero : context.refcount? name = some 0
    · have unfolded : context.releaseUnread (name :: rest) =
          (context.release name).releaseUnread rest := by
        simp only [releaseUnread, List.foldl_cons, zero, ↓reduceIte]
      have ⟨released, logs, isReleased, counts⟩ := ih (context.release name)
      refine ⟨name :: released, ?_, ?_, ?_⟩
      · rw [unfolded]
        exact (release_logs zero).trans logs
      · intro other
        rw [List.mem_cons, List.mem_cons, isReleased, refcount?_release]
        by_cases same : other = name
        · simp [same, zero]
        · simp [same]
      · intro other
        rw [unfolded, counts, refcount?_release]
        by_cases same : other = name
        · simp [same]
        · simp [same]
    · have unfolded : context.releaseUnread (name :: rest) = context.releaseUnread rest := by
        simp only [releaseUnread, List.foldl_cons, zero, ↓reduceIte]
      have ⟨released, logs, isReleased, counts⟩ := ih context
      refine ⟨released, unfolded ▸ logs, ?_, unfolded ▸ counts⟩
      intro other
      rw [isReleased, List.mem_cons]
      constructor
      · exact fun ⟨member, count⟩ => ⟨.inr member, count⟩
      · intro ⟨member, count⟩
        have unlike : other ≠ name := fun same => zero (same ▸ count)
        exact ⟨member.resolve_left unlike, count⟩

/-! ### Evaluating -/

/-- The evaluation has run, and its tensors are settled. -/
structure Settles (context : Context World) (evaluation : Evaluation World)
    (released : List String) (after : Context World) : Prop where
  queue : after.queue = context.queue
  phase : after.phase = context.phase
  events : after.events =
    context.events ++ .executed evaluation.kernel.name :: released.map .released
  held : ∀ name ∈ evaluation.inputs, ∃ left, context.refcount? name = some (left + 1)
  mem_released_iff : ∀ name, name ∈ released ↔
    name ∈ evaluation.inputs ∧ context.refcount? name = some 1 ∨
      name ∈ evaluation.outputs ∧ context.refcount? name = some 0
  counts : ∀ name, name ∉ released → after.refcount? name =
    (context.refcount? name).map fun count =>
      if name ∈ evaluation.inputs then count - 1 else count
  gone : ∀ name ∈ released, after.refcount? name = none

/-- The evaluation does not run: one of its tensors is not registered, or its kernel fails. -/
inductive Refuses (context : Context World) (evaluation : Evaluation World) :
    ContextError → World → Prop where
  | unregistered {name : String} (listed : name ∈ evaluation.inputs ++ evaluation.outputs)
      (missing : context.refcount? name = none) :
      Refuses context evaluation (.notRegistered name) context.world
  | failed {inputs outputs : List Handle} {error : ContextError} {world : World}
      (readable : context.resolve evaluation.inputs = .ok inputs)
      (writable : context.resolve evaluation.outputs = .ok outputs)
      (failure : evaluation.kernel.execute inputs outputs context.world = (.error error, world)) :
      Refuses context evaluation error world

/-- The three things that an evaluation can come to. In the last its kernel has run, and the counts
of some of its inputs are not taken. -/
inductive Evaluates (context : Context World) (evaluation : Evaluation World) :
    Outcome World → Prop where
  | settled {released : List String} {after : Context World}
      (settles : context.Settles evaluation released after) :
      Evaluates context evaluation (.ok (), after)
  | refused {error : ContextError} {world : World}
      (refuses : context.Refuses evaluation error world) :
      Evaluates context evaluation (.error error, { context with world })
  | underflow {name : String} (released : List String) {after : Context World}
      (reads : name ∈ evaluation.inputs) (zero : context.refcount? name = some 0)
      (queue : after.queue = context.queue) (phase : after.phase = context.phase)
      (events : after.events =
        context.events ++ .executed evaluation.kernel.name :: released.map .released) :
      Evaluates context evaluation (.error (.refcountUnderflow name), after)

theorem resolve_cases (context : Context World) (names : List String) :
    (∃ handles, context.resolve names = .ok handles ∧
      ∀ name ∈ names, context.refcount? name ≠ none) ∨
    ∃ name ∈ names, context.resolve names = .error (.notRegistered name) ∧
      context.refcount? name = none := by
  unfold resolve
  induction names with
  | nil => exact .inl ⟨[], rfl, by simp⟩
  | cons name rest ih =>
    rw [List.mapM_cons]
    cases found : context.registration? name with
    | none =>
      have failed : context.lookup name = .error (.notRegistered name) := by rw [lookup, found]
      refine .inr ⟨name, List.mem_cons_self .., ?_, refcount?_eq_none_iff.mpr found⟩
      rw [failed]
      rfl
    | some registration =>
      have handle : context.lookup name = .ok registration.handle := by rw [lookup, found]
      have registered : context.refcount? name ≠ none := by simp [refcount?, found]
      rw [handle, ok_bind]
      rcases ih with ⟨handles, resolved, known⟩ | ⟨other, member, failed, missing⟩
      · refine .inl ⟨registration.handle :: handles, by rw [resolved]; rfl, ?_⟩
        exact List.forall_mem_cons.mpr ⟨registered, known⟩
      · exact .inr ⟨other, List.mem_cons_of_mem _ member, by rw [failed]; rfl, missing⟩

section Read

variable {evaluation : Evaluation World} {world : World} {read : List String}
  (spends : ({ context with world }.note (.executed evaluation.kernel.name)).Spends
    (distinct [] evaluation.inputs) read middle)

include spends

theorem Spends.mem_read_iff (name : String) :
    name ∈ read ↔ name ∈ evaluation.inputs ∧ context.refcount? name = some 1 := by
  rw [spends.mem_released_iff, mem_distinct_nil]
  rfl

theorem Spends.held_inputs :
    ∀ name ∈ evaluation.inputs, ∃ left, context.refcount? name = some (left + 1) :=
  fun name member => spends.held name (mem_distinct_nil.mpr member)

theorem Spends.counts_inputs (name : String) :
    middle.refcount? name =
      if name ∈ read then none
      else (context.refcount? name).map fun count =>
        if name ∈ evaluation.inputs then count - 1 else count := by
  rw [spends.counts]
  simp only [mem_distinct_nil]
  show (if name ∈ read then none
    else if name ∈ evaluation.inputs then (context.refcount? name).map (· - 1)
    else context.refcount? name) = _
  by_cases reads : name ∈ evaluation.inputs
  · simp only [reads, ↓reduceIte]
  · simp [reads]

/-- A tensor that is left with no unit after the reading was not read. -/
theorem Spends.unread_iff (name : String) :
    middle.refcount? name = some 0 ↔ context.refcount? name = some 0 := by
  rw [spends.counts_inputs]
  by_cases reads : name ∈ evaluation.inputs
  · have ⟨left, count⟩ := spends.held_inputs name reads
    cases left with
    | zero => simp [spends.mem_read_iff, reads, count]
    | succ left => simp [spends.mem_read_iff, reads, count]
  · simp [spends.mem_read_iff, reads]

/-- Reading and then writing settles an evaluation that has run. -/
theorem Spends.settles :
    ∃ released, context.Settles evaluation released
      (middle.releaseUnread evaluation.outputs) := by
  have ⟨unread, logs, isUnread, counts⟩ := middle.releaseUnread_spec evaluation.outputs
  refine ⟨read ++ unread, ?_, ?_, ?_, spends.held_inputs, ?_, ?_, ?_⟩
  · rw [logs.queue, spends.logs.queue]
    rfl
  · rw [logs.phase, spends.logs.phase]
    rfl
  · rw [logs.events, spends.logs.events, List.map_append]
    simp [note]
  · intro name
    rw [List.mem_append, spends.mem_read_iff, isUnread, spends.unread_iff]
  · intro name kept
    rw [List.mem_append, not_or] at kept
    rw [counts, if_neg kept.2, spends.counts_inputs, if_neg kept.1]
  · intro name gone
    rw [counts]
    rcases List.mem_append.mp gone with early | late
    · rw [spends.counts_inputs, if_pos early]
      split <;> rfl
    · rw [if_pos late]

end Read

theorem evaluate_spec (context : Context World) (evaluation : Evaluation World) :
    context.Evaluates evaluation (context.evaluate evaluation) := by
  unfold evaluate
  rcases context.resolve_cases evaluation.inputs with
    ⟨inputs, readable, registered⟩ | ⟨name, member, failed, missing⟩
  · rcases context.resolve_cases evaluation.outputs with
      ⟨outputs, writable, _⟩ | ⟨name, member, failed, missing⟩
    · rw [readable, writable]
      dsimp only
      rcases ran : evaluation.kernel.execute inputs outputs context.world with
        ⟨error | ⟨⟩, world⟩
      · exact .refused (.failed readable writable ran)
      · have known : ∀ name ∈ distinct [] evaluation.inputs,
            ({ context with world }.note (.executed evaluation.kernel.name)).refcount? name ≠
              none :=
          fun name member => registered name (mem_distinct_nil.mp member)
        dsimp only
        rcases decrementAll_cases _ (distinct_nodup [] evaluation.inputs) known with
          ⟨read, middle, taken, spends⟩ | ⟨name, member, zero, released, after, failed, logs⟩
        · have ⟨released, settles⟩ := spends.settles
          rw [taken]
          exact .settled settles
        · rw [failed]
          refine .underflow released (mem_distinct_nil.mp member) zero logs.queue logs.phase ?_
          rw [logs.events]
          show context.events ++ [_] ++ _ = _
          rw [List.append_assoc]
          rfl
    · rw [readable, failed]
      exact .refused (.unregistered (List.mem_append_right _ member) missing)
  · rw [failed]
    exact .refused (.unregistered (List.mem_append_left _ member) missing)

end Context

end TensorArena
