import TensorArena.Proofs.Program.Assembly

/-!
# Programs run to their end

A graph whose lifetimes the plan records is assembled into a program for every batching. Its steps
run unless two tensors clash. When no two do, as in a planned graph, and the outputs are declared,
the program runs to its end with any kernels that do not fail. Then nothing is registered or queued,
and the world and the executions and releases are those of the steps in their order.
-/

set_option autoImplicit false

namespace TensorArena

theorem filter_isEffect_released (names : List String) :
    (names.map Event.released).filter Event.isEffect = names.map .released := by
  rw [List.filter_eq_self]
  intro event listed
  obtain ⟨name, _, rfl⟩ := List.mem_map.mp listed
  rfl

namespace Launch

variable {World : Type} {catalog : Catalog} {launch : Launch World}

/-- An output of a step from `step` on clashes when it is registered. By then the steps before
`since` of its step have run. -/
def Clashes (launch : Launch World) (since : Nat → Nat) (step : Nat)
    (left right : Lifetime) : Prop :=
  ∃ later operator, step ≤ later ∧ launch.graph.operators[later]? = some operator ∧
    left.name ∈ operator.outputs ∧
    launch.Clash (Context.Tracks.settled (since later) (later + 1) []) left right

/-- All steps have run, and nothing waits. -/
def Complete (launch : Launch World) (execution : Execution World) : Prop :=
  launch.Running launch.graph.operators.length 0 (Context.Tracks.settled
    launch.graph.operators.length launch.graph.operators.length []) execution.context

/-- The steps that have run by the time a step is requested are all those before it, or at least
those that hold its slots. An eager program leaves none behind. -/
def Prompt (launch : Launch World) (batching : Batching) (since : Nat → Nat) (step : Nat) : Prop :=
  ∀ later operator, step ≤ later → launch.graph.operators[later]? = some operator →
    since later = later ∨ batching.emission ≠ .eager ∧
      launch.plan.AvailableBefore (since later) operator.outputs

/-- After the last operator a flush empties the queue. -/
theorem Enqueued.rest_runs {execution : Execution World} {batch : Batch}
    (ready : launch.Ready catalog)
    (enqueued : launch.Enqueued launch.graph.operators.length batch execution) :
    ∃ after, launch.runs execution (if 0 < batch.pending then [.flush] else []) = .ok after ∧
      launch.Complete after := by
  obtain ⟨done, count, whole, pends, _, running⟩ := enqueued
  unfold Complete
  rw [← whole] at running ⊢
  by_cases waits : 0 < batch.pending
  · obtain ⟨after, flushed, _, finished⟩ := flush_runs ready running (Nat.le_of_eq whole)
    exact ⟨after, by rwa [if_pos waits], finished⟩
  · obtain rfl : count = 0 := by
      rw [pends.pending] at waits
      omega
    exact ⟨execution, by rw [if_neg waits]; rfl, running⟩

/-- The rest of the operators is assembled, and its steps run unless two tensors clash. -/
theorem assembleFrom_runs (ready : launch.Ready catalog) (batching : Batching)
    {operators : List Operator} :
    ∀ {step : Nat} {batch : Batch}, launch.graph.operators.drop step = operators →
      step ≤ launch.graph.operators.length →
      (batching.emission = .eager → batch.first = none) →
      ∃ steps since, launch.Prompt batching since step ∧
        assembleFrom launch.plan launch.table batching step operators batch = .ok steps ∧
        (∀ step ∈ steps, step.Refers launch.graph launch.plan launch.table) ∧
        ∀ execution, launch.Enqueued step batch execution →
          launch.Registers execution steps (launch.Clashes since step) launch.Complete := by
  induction operators with
  | nil =>
    intro step batch rest inside _
    obtain rfl := Nat.le_antisymm inside (List.drop_eq_nil_iff.mp rest)
    refine ⟨if 0 < batch.pending then [.flush] else [], id, fun _ _ _ _ => .inl rfl, rfl, ?_, ?_⟩
    · intro step member
      split at member
      · rw [List.mem_singleton.mp member]
        trivial
      · cases member
    · intro execution enqueued
      obtain ⟨after, ran, complete⟩ := enqueued.rest_runs ready
      refine (Registers.of_ok ran complete).congr (fun _ _ => False.elim) ?_
      rintro left right ⟨later, operator, late, present, _⟩
      have := (List.getElem?_eq_some_iff.mp present).1
      omega
  | cons operator others ih =>
    intro step batch rest inside empty
    obtain ⟨present, next⟩ := of_drop_eq_cons rest
    have below := (List.getElem?_eq_some_iff.mp present).1
    obtain ⟨first, pushed, done, behind, assembled, ends, refers, run⟩ :=
      assembleOperator_runs ready batching batch present
    obtain ⟨steps, since, prompt, restAssembled, restRefers, restRun⟩ := ih next below ends
    refine ⟨first ++ steps, Function.update since step done, ?_, ?_, ?_, ?_⟩
    · intro later current late isCurrent
      by_cases now : later = step
      · subst now
        obtain rfl := Option.some.inj (present.symm.trans isCurrent)
        rw [Function.update_self]
        exact behind.imp_right (And.imp_left fun waits eager => waits (empty eager))
      · rw [Function.update_of_ne now]
        exact prompt later current (by omega) isCurrent
    · unfold assembleFrom
      rw [assembled, ok_bind]
      dsimp only
      rw [restAssembled, ok_bind]
      rfl
    · intro step member
      rcases List.mem_append.mp member with member | member
      · exact refers step member
      · exact restRefers step member
    · intro execution enqueued
      refine ((run execution enqueued).append restRun).congr ?_ ?_
      · rintro left right (⟨listed, clash⟩ | ⟨later, current, late, isCurrent, listed, clash⟩)
        · exact ⟨step, operator, Nat.le_refl _, present, listed, by rwa [Function.update_self]⟩
        · have other : later ≠ step := by omega
          exact ⟨later, current, by omega, isCurrent, listed, by rwa [Function.update_of_ne other]⟩
      · rintro left right ⟨later, current, late, isCurrent, listed, clash⟩
        by_cases now : later = step
        · subst now
          obtain rfl := Option.some.inj (present.symm.trans isCurrent)
          rw [Function.update_self] at clash
          exact ⟨left, right, .inl ⟨listed, clash⟩⟩
        · rw [Function.update_of_ne now] at clash
          exact ⟨left, right, .inr ⟨later, current, by omega, isCurrent, listed, clash⟩⟩

theorem entrySteps_refer (ready : launch.Ready catalog) :
    ∀ step ∈ launch.plan.entrySteps, step.Refers launch.graph launch.plan launch.table := by
  intro step member
  obtain ⟨entry, listed, rfl⟩ := List.mem_map.mp member
  exact ⟨entry, ready.recorded.entry?_eq_some_iff.mpr ⟨(List.mem_filter.mp listed).1, rfl⟩⟩

/-- For every batching there is a program, and its steps run unless two tensors clash. -/
theorem assemble_runs (ready : launch.Ready catalog) (batching : Batching) :
    ∃ steps since, launch.Prompt batching since 0 ∧
      launch.graph.assemble launch.plan launch.table batching = .ok steps ∧
      (∀ step ∈ steps, step.Refers launch.graph launch.plan launch.table) ∧
      launch.Registers { context := { world := launch.world } } steps
        (fun left right => launch.Clash (Context.Tracks.settled 0 0 []) left right ∨
          launch.Clashes since 0 left right) launch.Complete := by
  have unbatched : batching.emission = .eager → ({} : Batch).first = none := fun _ => rfl
  obtain ⟨steps, since, prompt, assembled, refers, run⟩ :=
    assembleFrom_runs ready batching (List.drop_zero ..) (Nat.zero_le _) unbatched
  refine ⟨launch.plan.entrySteps ++ steps, since, prompt, ?_, ?_, ?_⟩
  · unfold Graph.assemble
    rw [assembled]
    rfl
  · intro step member
    rcases List.mem_append.mp member with member | member
    · exact entrySteps_refer ready step member
    · exact refers step member
  · refine (Running.registerEntries ready).append ?_
    rintro middle ⟨declared, running⟩
    exact run middle ⟨0, 0, rfl, ⟨rfl, rfl⟩, by simp [Knows], running⟩

/-- The steps of a planned graph run. -/
theorem Sound.assemble_runs {options : ArenaOptions} (sound : launch.Sound options catalog)
    (batching : Batching) :
    ∃ steps execution, launch.graph.assemble launch.plan launch.table batching = .ok steps ∧
      (∀ step ∈ steps, step.Refers launch.graph launch.plan launch.table) ∧
      launch.runs { context := { world := launch.world } } steps = .ok execution ∧
      launch.Complete execution := by
  obtain ⟨steps, since, prompt, assembled, refers, registers⟩ :=
    Launch.assemble_runs sound.ready batching
  obtain ⟨execution, ran, complete⟩ := registers.ok (by
    rintro left right (clash | ⟨step, operator, late, present, listed, clash⟩)
    · exact sound.entries_clear clash
    · exact sound.outputs_clear present ((prompt step operator late present).imp_right And.right)
        listed clash)
  exact ⟨steps, execution, assembled, refers, ran, complete⟩

/-- Once all its steps have run, a program ends with the release of the outputs. -/
theorem Complete.finish {execution : Execution World} (complete : launch.Complete execution)
    (ready : launch.Ready catalog) (distinct : launch.graph.outputs.Nodup)
    (declared : ∀ name ∈ launch.graph.outputs, (launch.graph.tensor? name).isSome)
    {steps : List Step}
    (ran : launch.runs { context := { world := launch.world } } steps = .ok execution) :
    ∃ context, launch.graph.execute launch.plan launch.table launch.kernel launch.world steps =
        .ok context ∧ context.tensors = [] ∧ context.queue = [] ∧ context.phase = .terminated ∧
      context.world = launch.worldAfter launch.graph.operators.length ∧
      context.events =
        execution.context.events ++ .flushed 0 :: launch.graph.outputs.map .released := by
  obtain ⟨context, finished, results⟩ := Running.finish ready complete distinct
    fun name listed => ready.recorded.exact.exists_of_tensor? (declared name listed)
  refine ⟨context, ?_, results⟩
  unfold runs at ran
  unfold Graph.execute
  rw [ran, ok_bind, finished]
  rfl

/-- For every batching there is a program of a planned graph, and it runs to its end. -/
theorem assemble_executes {options : ArenaOptions} (sound : launch.Sound options catalog)
    (distinct : launch.graph.outputs.Nodup)
    (declared : ∀ name ∈ launch.graph.outputs, (launch.graph.tensor? name).isSome)
    (batching : Batching) :
    ∃ steps, launch.graph.assemble launch.plan launch.table batching = .ok steps ∧
      (∀ step ∈ steps, step.Refers launch.graph launch.plan launch.table) ∧
      ∃ context, launch.graph.execute launch.plan launch.table launch.kernel launch.world steps =
        .ok context ∧ context.tensors = [] ∧ context.queue = [] ∧ context.phase = .terminated ∧
        context.world = launch.worldAfter launch.graph.operators.length ∧
        context.events.filter Event.isEffect =
          launch.effectsBefore launch.graph.operators.length ++
            launch.graph.outputs.map .released := by
  obtain ⟨steps, execution, assembled, refers, ran, complete⟩ := sound.assemble_runs batching
  obtain ⟨context, executed, empty, idle, phase, world, events⟩ :=
    complete.finish sound.ready distinct declared ran
  refine ⟨steps, assembled, refers, context, executed, empty, idle, phase, world, ?_⟩
  rw [events, List.filter_append, complete.effects, List.filter_cons_of_neg (by decide),
    filter_isEffect_released]

end Launch

end TensorArena
