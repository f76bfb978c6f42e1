import Mathlib.Data.List.Count
import TensorArena.Catalog.Standard
import TensorArena.Proofs.Arena.Ownership
import TensorArena.Proofs.Graph.Boundary
import TensorArena.Proofs.Program.Completion

/-!
# Releases

Every tensor is released once. The release follows the execution of the last step that uses the
tensor and comes before the next execution, as the plan has foreseen. The outputs of the graph are
released at the end, in their order.
-/

set_option autoImplicit false

namespace TensorArena

/-! ### Logs -/

def Event.isExecution : Event → Bool
  | .executed _ => true
  | _ => false

theorem Event.isEffect_of_isExecution {event : Event} (execution : event.isExecution = true) :
    event.isEffect = true := by
  cases event <;> first | rfl | cases execution

/-- The executions of a log are among its effects. -/
theorem countP_isExecution_filter (events : List Event) :
    (events.filter Event.isEffect).countP Event.isExecution = events.countP Event.isExecution := by
  rw [List.countP_filter]
  refine List.countP_congr fun event _ => ?_
  rw [Bool.and_eq_true]
  exact ⟨And.left, fun execution => ⟨execution, Event.isEffect_of_isExecution execution⟩⟩

theorem countP_isExecution_released (names : List String) :
    (names.map Event.released).countP Event.isExecution = 0 := by
  rw [List.countP_eq_zero]
  intro event listed
  obtain ⟨name, _, rfl⟩ := List.mem_map.mp listed
  exact Bool.false_ne_true

theorem count_released (names : List String) (name : String) :
    (names.map Event.released).count (.released name) = names.count name :=
  List.count_map_of_injective names Event.released (fun _ _ => Event.released.inj) name

namespace Launch

variable {World : Type} {catalog : Catalog} {launch : Launch World} {lifetime : Lifetime}

/-- The tensors that a step is the last to use. -/
def releasedBy (launch : Launch World) (step : Nat) (evaluation : Evaluation World) : List String :=
  (Context.distinct [] evaluation.inputs ++ evaluation.outputs).filter
    (launch.lifetimes.isOver (step + 1))

theorem effectsOf_eq (launch : Launch World) (step : Nat) (evaluation : Evaluation World) :
    launch.effectsOf step evaluation =
      .executed evaluation.kernel.name :: (launch.releasedBy step evaluation).map .released := rfl

namespace Ready

/-! ### One step -/

theorem exists_evaluation (ready : launch.Ready catalog) {step : Nat}
    (inside : step < launch.graph.operators.length) :
    ∃ evaluation, launch.evaluation? step = some evaluation := by
  obtain ⟨operator, shared, _, _, _, found⟩ := ready.evaluation? inside
  exact ⟨_, found⟩

theorem releasedBy_nodup (ready : launch.Ready catalog) {step : Nat}
    {evaluation : Evaluation World} (inside : step < launch.graph.operators.length)
    (found : launch.evaluation? step = some evaluation) :
    (launch.releasedBy step evaluation).Nodup := by
  obtain ⟨operator, shared, present, _, _, whole⟩ := ready.evaluation? inside
  obtain rfl := Option.some.inj (found.symm.trans whole)
  refine (List.nodup_append.mpr ⟨Context.distinct_nodup _ _,
    ready.recorded.exact.outputs operator (List.mem_of_getElem? present), ?_⟩).filter _
  rintro name read _ written rfl
  exact ready.recorded.exact.not_reads_of_writes ⟨operator, present, written⟩
    ⟨operator, present, (Context.mem_distinct.mp read).1⟩

/-- A step releases the tensors whose live intervals end with it. -/
theorem mem_releasedBy (ready : launch.Ready catalog) {step : Nat}
    {evaluation : Evaluation World} (inside : step < launch.graph.operators.length)
    (found : launch.evaluation? step = some evaluation)
    (member : lifetime ∈ launch.lifetimes.tensors) :
    lifetime.name ∈ launch.releasedBy step evaluation ↔ lifetime.interval.stop = step + 1 := by
  obtain ⟨operator, shared, present, _, _, whole⟩ := ready.evaluation? inside
  obtain rfl := Option.some.inj (found.symm.trans whole)
  have known := ready.recorded.known member
  have operand : lifetime.name ∈ Context.distinct [] operator.inputs ++ operator.outputs ↔
      launch.graph.Reads step lifetime.name ∨ launch.graph.Writes step lifetime.name := by
    rw [List.mem_append, Context.mem_distinct, Graph.reads_iff present, Graph.writes_iff present]
    simp
  rw [releasedBy, List.mem_filter, ready.recorded.isOver_eq member, decide_eq_true_iff, operand]
  constructor
  · rintro ⟨uses, ended⟩
    obtain ⟨other, inOther, same, _, unfinished⟩ := ready.recorded.live uses
    obtain rfl := ready.recorded.eq_of_name_eq inOther member same
    omega
  · intro stop
    refine ⟨?_, Nat.le_of_eq stop⟩
    by_contra unused
    obtain ⟨unread, unwritten⟩ := not_or.mp unused
    have := (known.stop_le_succ_iff inside unread unwritten).mp (Nat.le_of_eq stop)
    omega

/-! ### The first steps -/

theorem countP_isExecution_effectsBefore (ready : launch.Ready catalog) {steps : Nat}
    (inside : steps ≤ launch.graph.operators.length) :
    (launch.effectsBefore steps).countP Event.isExecution = steps := by
  induction steps with
  | zero => rfl
  | succ step ih =>
    obtain ⟨evaluation, found⟩ := ready.exists_evaluation inside
    rw [effectsBefore_succ found, effectsOf_eq, List.countP_append,
      ih (Nat.le_of_succ_le inside), List.countP_cons, countP_isExecution_released]
    rfl

/-- The first steps release the tensors whose live intervals end with one of them, each once. -/
theorem count_effectsBefore (ready : launch.Ready catalog) {steps : Nat}
    (inside : steps ≤ launch.graph.operators.length)
    (member : lifetime ∈ launch.lifetimes.tensors) :
    (launch.effectsBefore steps).count (.released lifetime.name) =
      if lifetime.interval.stop ≤ steps then 1 else 0 := by
  induction steps with
  | zero =>
    have positive := (ready.recorded.known member).stop_pos
    rw [if_neg (by omega)]
    rfl
  | succ step ih =>
    obtain ⟨evaluation, found⟩ := ready.exists_evaluation inside
    have releases := ready.mem_releasedBy inside found member
    have distinct := ready.releasedBy_nodup inside found
    rw [effectsBefore_succ found, effectsOf_eq, List.count_append,
      ih (Nat.le_of_succ_le inside), List.count_cons_of_ne (by simp), count_released,
      distinct.count, if_congr releases rfl rfl]
    by_cases earlier : lifetime.interval.stop ≤ step
    · rw [if_pos earlier, if_neg (by omega), if_pos (by omega)]
    · rw [if_neg earlier, Nat.zero_add]
      exact if_congr (by omega) rfl rfl

/-- Only tensors of the graph are released. -/
theorem exists_of_released (ready : launch.Ready catalog) {steps : Nat}
    (inside : steps ≤ launch.graph.operators.length) {name : String}
    (released : .released name ∈ launch.effectsBefore steps) :
    ∃ lifetime ∈ launch.lifetimes.tensors, lifetime.name = name := by
  induction steps with
  | zero => cases released
  | succ step ih =>
    obtain ⟨evaluation, found⟩ := ready.exists_evaluation inside
    rw [effectsBefore_succ found, effectsOf_eq, List.mem_append] at released
    rcases released with earlier | now
    · exact ih (Nat.le_of_succ_le inside) earlier
    · have listed : name ∈ launch.releasedBy step evaluation := by simpa using now
      obtain ⟨lifetime, known, _⟩ := (Option.any_eq_true _ _).mp (List.mem_filter.mp listed).2
      exact ⟨lifetime, ready.recorded.exact.get?_eq_some_iff.mp known⟩

/-- A release stands behind the execution of the last step that uses the tensor, and before the
next execution. -/
theorem stop_of_effectsBefore (ready : launch.Ready catalog) {steps : Nat}
    (inside : steps ≤ launch.graph.operators.length)
    (member : lifetime ∈ launch.lifetimes.tensors) :
    ∀ {before after : List Event},
      launch.effectsBefore steps = before ++ .released lifetime.name :: after →
      before.countP Event.isExecution = lifetime.interval.stop := by
  induction steps with
  | zero =>
    intro before after split
    cases before <;> cases split
  | succ step ih =>
    intro before after split
    obtain ⟨evaluation, found⟩ := ready.exists_evaluation inside
    rw [effectsBefore_succ found] at split
    rcases List.append_eq_append_iff.mp split with ⟨middle, whole, rest⟩ | ⟨middle, whole, rest⟩
    · -- The release belongs to the last step, behind its execution.
      rw [effectsOf_eq] at rest
      cases middle with
      | nil => cases rest
      | cons event middle =>
        rw [List.cons_append] at rest
        obtain ⟨rfl, released⟩ := List.cons.inj rest
        have listed : lifetime.name ∈ launch.releasedBy step evaluation := by
          have inLog : Event.released lifetime.name ∈
              (launch.releasedBy step evaluation).map Event.released := by
            rw [released]
            simp
          simpa using inLog
        have unexecuted : middle.countP Event.isExecution = 0 := by
          have none := countP_isExecution_released (launch.releasedBy step evaluation)
          rw [released, List.countP_append] at none
          omega
        rw [whole, List.countP_append, List.countP_cons, unexecuted,
          ready.countP_isExecution_effectsBefore (Nat.le_of_succ_le inside),
          (ready.mem_releasedBy inside found member).mp listed]
        rfl
    · cases middle with
      | nil =>
        rw [effectsOf_eq] at rest
        cases rest
      | cons event middle =>
        obtain ⟨rfl, _⟩ := List.cons.inj rest
        exact ih (Nat.le_of_succ_le inside) whole

end Ready

/-! ### The whole log -/

namespace Complete

variable {execution : Execution World}

theorem countP_isExecution (complete : launch.Complete execution) (ready : launch.Ready catalog) :
    execution.context.events.countP Event.isExecution = launch.graph.operators.length := by
  rw [← countP_isExecution_filter, complete.effects,
    ready.countP_isExecution_effectsBefore (Nat.le_refl _)]

theorem count_released (complete : launch.Complete execution) (ready : launch.Ready catalog)
    (member : lifetime ∈ launch.lifetimes.tensors) :
    execution.context.events.count (.released lifetime.name) =
      if lifetime.interval.stop ≤ launch.graph.operators.length then 1 else 0 := by
  rw [← ready.count_effectsBefore (Nat.le_refl _) member, ← complete.effects,
    List.count_filter rfl]

theorem stop_of_released (complete : launch.Complete execution) (ready : launch.Ready catalog)
    (member : lifetime ∈ launch.lifetimes.tensors) {before after : List Event}
    (split : execution.context.events = before ++ .released lifetime.name :: after) :
    before.countP Event.isExecution = lifetime.interval.stop := by
  have effects := complete.effects
  rw [split, List.filter_append, List.filter_cons_of_pos rfl] at effects
  rw [← countP_isExecution_filter]
  exact ready.stop_of_effectsBefore (Nat.le_refl _) member effects.symm

theorem not_released (complete : launch.Complete execution) (ready : launch.Ready catalog)
    {name : String} (unknown : ∀ lifetime ∈ launch.lifetimes.tensors, lifetime.name ≠ name) :
    .released name ∉ execution.context.events := by
  intro released
  have effect : Event.released name ∈ execution.context.events.filter Event.isEffect :=
    List.mem_filter.mpr ⟨released, rfl⟩
  rw [complete.effects] at effect
  obtain ⟨lifetime, member, named⟩ := ready.exists_of_released (Nat.le_refl _) effect
  exact unknown lifetime member named

end Complete

/-- The log of a program with the releases at its end. -/
def closedLog (launch : Launch World) (execution : Execution World) : List Event :=
  execution.context.events ++ .flushed 0 :: launch.graph.outputs.map .released

namespace Complete

variable {execution : Execution World}

/-- Either a step releases a tensor, or the outside does. -/
theorem count_closedLog (complete : launch.Complete execution) (ready : launch.Ready catalog)
    (distinct : launch.graph.outputs.Nodup) (member : lifetime ∈ launch.lifetimes.tensors) :
    (launch.closedLog execution).count (.released lifetime.name) = 1 := by
  have inner := (ready.recorded.known member).stop_le_length_iff
  rw [closedLog, List.count_append, complete.count_released ready member,
    List.count_cons_of_ne (by simp), TensorArena.count_released, distinct.count]
  by_cases output : lifetime.name ∈ launch.graph.outputs
  · rw [if_neg (fun ended => inner.mp ended output), if_pos output]
  · rw [if_pos (inner.mpr output), if_neg output]

theorem not_mem_closedLog (complete : launch.Complete execution) (ready : launch.Ready catalog)
    (declared : ∀ name ∈ launch.graph.outputs, (launch.graph.tensor? name).isSome) {name : String}
    (unknown : ∀ lifetime ∈ launch.lifetimes.tensors, lifetime.name ≠ name) :
    .released name ∉ launch.closedLog execution := by
  rw [closedLog, List.mem_append, not_or]
  refine ⟨complete.not_released ready unknown, ?_⟩
  intro released
  have output : name ∈ launch.graph.outputs := by simpa using released
  obtain ⟨lifetime, member, named⟩ := ready.recorded.exact.exists_of_tensor? (declared name output)
  exact unknown lifetime member named

/-- What stands before a release: the executions up to the last step that uses the tensor, or the
whole program if the tensor is an output. -/
theorem closedLog_split (complete : launch.Complete execution) (ready : launch.Ready catalog)
    (member : lifetime ∈ launch.lifetimes.tensors) {before after : List Event}
    (split : launch.closedLog execution = before ++ .released lifetime.name :: after) :
    if lifetime.interval.stop ≤ launch.graph.operators.length then
      before.countP Event.isExecution = lifetime.interval.stop
    else execution.context.events <+: before := by
  have known := ready.recorded.known member
  have counted := complete.count_released ready member
  unfold closedLog at split
  rcases List.append_eq_append_iff.mp split with ⟨middle, whole, rest⟩ | ⟨middle, whole, rest⟩
  · -- The release is one of those at the end.
    cases middle with
    | nil => cases rest
    | cons event middle =>
      rw [List.cons_append] at rest
      obtain ⟨_, released⟩ := List.cons.inj rest
      have inLog : Event.released lifetime.name ∈ launch.graph.outputs.map Event.released := by
        rw [released]
        simp
      have output : lifetime.name ∈ launch.graph.outputs := by simpa using inLog
      rw [if_neg (fun ended => known.stop_le_length_iff.mp ended output)]
      exact ⟨_, whole.symm⟩
  · cases middle with
    | nil => cases rest
    | cons event middle =>
      rw [List.cons_append] at rest
      obtain ⟨rfl, _⟩ := List.cons.inj rest
      have ended : lifetime.interval.stop ≤ launch.graph.operators.length := by
        by_contra later
        rw [if_neg later, whole] at counted
        simp at counted
      rw [if_pos ended]
      exact complete.stop_of_released ready member whole

end Complete

end Launch

/-- The releases of a replay are those that the plan foresees. The log of a replay shows one
release for each tensor, constants included, and none besides. If the plan gives a slot back after
a step, the release stands behind the execution of that step and before the next execution.
Otherwise the tensor is an output, and it is released when all steps have run: the log ends with
the outputs in their order. -/
theorem Graph.replay_releases_once (graph : Graph) (catalog : Catalog) (options : ArenaOptions)
    (lifetimes : Lifetimes) (plan : Plan) (table : InstanceTable)
    (valid : graph.validate = .ok ()) (analysed : graph.lifetimes = .ok lifetimes)
    (planned : graph.plan lifetimes options = .ok plan)
    (shared : graph.shareInstances catalog = .ok table) (batching : Batching) :
    ∃ steps execution context, graph.assemble plan table batching = .ok steps ∧
      steps.foldlM (Execution.step graph plan table fun _ symbol => .idle Unit symbol)
        { context := { world := () } } = .ok execution ∧
      graph.replay plan table steps = .ok context ∧
      context.events =
        execution.context.events ++ .flushed 0 :: graph.outputs.map .released ∧
      execution.context.events.countP Event.isExecution = graph.operators.length ∧
      (∀ name, context.events.count (.released name) =
        if name ∈ graph.tensors.map Tensor.name then 1 else 0) ∧
      ∀ entry ∈ plan.entries, ∀ before after,
        context.events = before ++ .released entry.name :: after →
        (∀ step, entry.releasedAfter = some step →
          before.countP Event.isExecution = step + 1) ∧
        (entry.releasedAfter = none →
          entry.name ∈ graph.outputs ∧ execution.context.events <+: before) := by
  obtain ⟨distinct, declared⟩ := validate_eq_ok valid
  have isPlanned := Planned.of_eq_ok analysed planned
  let launch : Launch Unit :=
    ⟨graph, lifetimes, plan, table, fun _ symbol => .idle Unit symbol, ()⟩
  have sound : launch.Sound options catalog :=
    ⟨isPlanned, shareInstances_eq_ok shared, fun _ _ _ _ _ => rfl⟩
  have ready := sound.ready
  obtain ⟨steps, execution, assembled, _, ran, complete⟩ := sound.assemble_runs batching
  obtain ⟨context, replayed, _, _, _, _, events⟩ := complete.finish ready distinct declared ran
  have log : context.events = launch.closedLog execution := events
  refine ⟨steps, execution, context, assembled, ran, replayed, events,
    complete.countP_isExecution ready, ?_, ?_⟩
  · intro name
    rw [log, ← isPlanned.exact.names]
    by_cases known : name ∈ lifetimes.tensors.map Lifetime.name
    · obtain ⟨lifetime, member, rfl⟩ := List.mem_map.mp known
      rw [if_pos known]
      exact complete.count_closedLog ready distinct member
    · rw [if_neg known, List.count_eq_zero]
      refine complete.not_mem_closedLog ready declared fun lifetime member named => ?_
      exact known (named ▸ List.mem_map_of_mem member)
  · intro entry listed before after split
    obtain ⟨lifetime, member, tensor, records⟩ :=
      isPlanned.fits.lifetime_of_mem isPlanned.exact listed
    have known := isPlanned.known member
    have positive := known.stop_pos
    rw [log, records.name] at split
    have stands := complete.closedLog_split ready member split
    rw [records.releasedAfter, records.name]
    by_cases ended : lifetime.interval.stop ≤ graph.operators.length
    · rw [if_pos ended] at stands ⊢
      refine ⟨fun step given => ?_, nofun⟩
      have := Option.some.inj given
      omega
    · rw [if_neg ended] at stands ⊢
      refine ⟨nofun, fun _ => ⟨?_, stands⟩⟩
      by_contra inner
      exact ended (known.stop_le_length_iff.mpr inner)

theorem Graph.relay_releases_once :
    ∃ lifetimes plan table, relay.validate = .ok () ∧ relay.lifetimes = .ok lifetimes ∧
      relay.plan lifetimes {} = .ok plan ∧ relay.shareInstances .standard = .ok table ∧
      plan.entries.map PlanEntry.releasedAfter = [some 0, some 0, some 1, some 2, none] ∧
      ∃ steps context log,
        relay.assemble plan table { maxPending := some 2 } = .ok steps ∧
        relay.replay plan table steps = .ok context ∧
        context.events = log ++ [.flushed 0, .released "y"] ∧
        ∀ name, context.events.count (.released name) =
          if name ∈ ["x", "w", "s", "t", "y"] then 1 else 0 := by
  obtain ⟨lifetimes, analysed⟩ : ∃ lifetimes, relay.lifetimes = .ok lifetimes := ⟨_, rfl⟩
  obtain ⟨plan, planned, released⟩ : ∃ plan, relay.plan lifetimes {} = .ok plan ∧
      plan.entries.map PlanEntry.releasedAfter = [some 0, some 0, some 1, some 2, none] := by
    cases analysed
    exact ⟨_, rfl, rfl⟩
  obtain ⟨table, shared⟩ : ∃ table, relay.shareInstances .standard = .ok table := ⟨_, rfl⟩
  obtain ⟨steps, execution, context, assembled, _, replayed, events, _, counts, _⟩ :=
    replay_releases_once relay .standard {} lifetimes plan table rfl analysed planned shared
      { maxPending := some 2 }
  exact ⟨lifetimes, plan, table, rfl, analysed, planned, shared, released, steps, context, _,
    assembled, replayed, events, counts⟩

end TensorArena
