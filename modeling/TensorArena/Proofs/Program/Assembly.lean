import TensorArena.Proofs.Program.Requests

/-!
# Assembled programs run

The assembly of a planned graph succeeds, and its steps run without a failure up to the end,
whatever the batching. A barrier stands before every registration that has to wait for a release.
-/

set_option autoImplicit false

namespace TensorArena

/-- The step refers to instances, entries and operators that there are. -/
def Step.Refers (graph : Graph) (plan : Plan) (table : InstanceTable) : Step → Prop
  | .declare id => ∃ shared, table.get? id = some shared
  | .construct id => ∃ shared, table.get? id = some shared
  | .register tensor => ∃ entry, plan.entry? tensor = some entry
  | .enqueue _ index id =>
    index < graph.operators.length ∧ ∃ shared, table.get? id = some shared
  | .flush => True

namespace Batch

/-- The steps that introduce an instance at its first use. -/
def introduction (batch : Batch) (id : Nat) : List Step :=
  if batch.declared.contains id then [] else [.declare id, .construct id]

/-- The batch after an instance has been introduced. -/
def introduce (batch : Batch) (id : Nat) : Batch :=
  if batch.declared.contains id then batch else { batch with declared := id :: batch.declared }

/-- The batch after a flush that may be left out. -/
def flushedIf (batch : Batch) (must : Bool) : Batch :=
  if must then batch.flushed else batch

/-- The batch consists of `count` steps from `done` on. -/
structure Pends (done count : Nat) (batch : Batch) : Prop where
  pending : batch.pending = count
  first : batch.first = if count = 0 then none else some done

@[simp] theorem introduce_first (batch : Batch) (id : Nat) :
    (batch.introduce id).first = batch.first := by
  unfold introduce
  split <;> rfl

@[simp] theorem introduce_pending (batch : Batch) (id : Nat) :
    (batch.introduce id).pending = batch.pending := by
  unfold introduce
  split <;> rfl

theorem mem_introduce {batch : Batch} {id other : Nat} :
    other ∈ (batch.introduce id).declared ↔ other = id ∨ other ∈ batch.declared := by
  unfold introduce
  split
  · rename_i listed
    constructor
    · exact .inr
    · rintro (rfl | member)
      · simpa using listed
      · exact member
  · exact List.mem_cons

@[simp] theorem flushedIf_declared (batch : Batch) (must : Bool) :
    (batch.flushedIf must).declared = batch.declared := by
  cases must <;> rfl

theorem pends_flushed (batch : Batch) (done : Nat) : batch.flushed.Pends done 0 := ⟨rfl, rfl⟩

theorem Pends.push {batch : Batch} {done count : Nat} (pends : batch.Pends done count) :
    (batch.push (done + count)).Pends done (count + 1) := by
  refine ⟨congrArg (· + 1) pends.pending, ?_⟩
  simp only [Batch.push, pends.first]
  cases count <;> simp

theorem Pends.introduce {batch : Batch} {done count : Nat} (pends : batch.Pends done count)
    (id : Nat) : (batch.introduce id).Pends done count := by
  refine ⟨?_, ?_⟩
  · rw [introduce_pending, pends.pending]
  · rw [introduce_first, pends.first]

end Batch

/-! ### The steps of one operator -/

/-- A flush that may be left out. -/
def flushIf (must : Bool) : List Step :=
  if must then [.flush] else []

theorem eq_flush_of_mem {must : Bool} {step : Step} (member : step ∈ flushIf must) :
    step = .flush := by
  cases must with
  | false => cases member
  | true => exact List.mem_singleton.mp member

/-- The steps of an operator, with and without its two flushes. -/
def operatorSteps (batch : Batch) (step : Nat) (operator : Operator) (id : Nat)
    (must full : Bool) : List Step :=
  batch.introduction id ++ flushIf must ++ operator.outputs.map Step.register ++
    [.enqueue step step id] ++ flushIf full

theorem operatorSteps_refer {graph : Graph} {plan : Plan} {table : InstanceTable} {batch : Batch}
    {step : Nat} {operator : Operator} {shared : Instance} {must full : Bool}
    (inside : step < graph.operators.length) (found : table.get? shared.id = some shared)
    (planned : ∀ name ∈ operator.outputs, ∃ entry, plan.entry? name = some entry) :
    ∀ other ∈ operatorSteps batch step operator shared.id must full,
      other.Refers graph plan table := by
  intro other member
  simp only [operatorSteps, List.mem_append, List.mem_map, List.mem_singleton] at member
  rcases member with (((member | member) | ⟨name, listed, rfl⟩) | rfl) | member
  · unfold Batch.introduction at member
    split at member
    · cases member
    · rcases List.mem_cons.mp member with rfl | member
      · exact ⟨shared, found⟩
      · rw [List.mem_singleton.mp member]
        exact ⟨shared, found⟩
  · rw [eq_flush_of_mem member]
    trivial
  · exact planned name listed
  · exact ⟨inside, shared, found⟩
  · rw [eq_flush_of_mem member]
    trivial

theorem assembleOperator_eq (plan : Plan) {table : InstanceTable} (batching : Batching)
    {step : Nat} (operator : Operator) (batch : Batch) {shared : Instance}
    (assigned : table.instanceOf? step = some shared) :
    assembleOperator plan table batching step operator batch =
      plan.mustFlush (batch.introduce shared.id) operator.outputs >>= fun must =>
        let pushed := ((batch.introduce shared.id).flushedIf must).push step
        let full := pushed.isFull batching
        .ok (operatorSteps batch step operator shared.id must full, pushed.flushedIf full) := by
  have introduced : (if batch.declared.contains shared.id = true then ([], batch)
      else ([Step.declare shared.id, Step.construct shared.id],
        { batch with declared := shared.id :: batch.declared })) =
      (batch.introduction shared.id, batch.introduce shared.id) := by
    unfold Batch.introduction Batch.introduce
    split <;> rfl
  have flushes : ∀ (full : Bool) (batch : Batch),
      (if full = true then ([Step.flush], batch.flushed) else ([], batch)) =
        (flushIf full, batch.flushedIf full) := by
    intro full batch
    cases full <;> rfl
  unfold assembleOperator
  simp only [assigned, introduced, flushes]
  rfl

/-- Whether a slot is taken over can be told of planned tensors. -/
theorem Plan.exists_reusesSince {plan : Plan} (first : Nat) {names : List String}
    (planned : ∀ name ∈ names, ∃ entry, plan.entry? name = some entry) :
    ∃ reuses, plan.reusesSince first names = .ok reuses := by
  induction names with
  | nil => exact ⟨false, rfl⟩
  | cons name rest ih =>
    obtain ⟨entry, found⟩ := planned name (by simp)
    obtain ⟨later, others⟩ := ih fun other member => planned other (by simp [member])
    unfold Plan.reusesSince
    simp only [found, others, ok_bind]
    exact ⟨_, rfl⟩

theorem Plan.availableBefore_cons {plan : Plan} {step : Nat} {name : String} {rest : List String}
    {entry : PlanEntry} (found : plan.entry? name = some entry) :
    plan.AvailableBefore step (name :: rest) ↔
      (∀ available ∈ entry.availableAfter, available < step) ∧ plan.AvailableBefore step rest := by
  unfold Plan.AvailableBefore
  rw [List.forall_mem_cons]
  refine and_congr_left' ⟨fun own => own entry found, fun own other isOther => ?_⟩
  exact Option.some.inj (found.symm.trans isOther) ▸ own

theorem Plan.reusesSince_iff {plan : Plan} {first : Nat} {names : List String} {reuses : Bool}
    (told : plan.reusesSince first names = .ok reuses) :
    reuses = true ↔ ¬ plan.AvailableBefore first names := by
  induction names generalizing reuses with
  | nil =>
    obtain rfl := Except.ok.inj told
    simp [Plan.AvailableBefore]
  | cons name rest ih =>
    unfold Plan.reusesSince at told
    split at told
    · cases told
    · rename_i entry found
      obtain ⟨later, others, told⟩ := bind_eq_ok.mp told
      rw [← pure_eq_ok.mp told, Bool.or_eq_true, ih others, Plan.availableBefore_cons found,
        not_and_or]
      refine or_congr_left ?_
      cases entry.availableAfter <;> simp

/-- Whether a flush is needed can be told. The steps that wait afterwards do not hold the slots. -/
theorem Plan.mustFlush_eq_ok {plan : Plan} (batch : Batch) {names : List String}
    (planned : ∀ name ∈ names, ∃ entry, plan.entry? name = some entry) :
    ∃ must, plan.mustFlush batch names = .ok must ∧
      ∀ first, (batch.flushedIf must).first = some first → plan.AvailableBefore first names := by
  unfold Plan.mustFlush
  cases waits : batch.first with
  | none =>
    refine ⟨false, rfl, fun first found => ?_⟩
    cases waits.symm.trans found
  | some start =>
    obtain ⟨reuses, told⟩ := Plan.exists_reusesSince start planned
    refine ⟨reuses, told, fun first found => ?_⟩
    cases reuses with
    | true => cases found
    | false =>
      obtain rfl := Option.some.inj (waits.symm.trans found)
      exact not_not.mp fun reused => nomatch (Plan.reusesSince_iff told).mpr reused

/-- A flush is needed when a waiting step may have given back a slot that is taken over. -/
theorem Plan.mustFlush_iff {plan : Plan} {batch : Batch} {names : List String} {must : Bool}
    (told : plan.mustFlush batch names = .ok must) :
    must = true ↔ ∃ first, batch.first = some first ∧ ¬ plan.AvailableBefore first names := by
  unfold Plan.mustFlush at told
  cases waits : batch.first with
  | none =>
    rw [waits] at told
    rw [← Except.ok.inj told]
    simp
  | some first =>
    rw [waits] at told
    rw [Plan.reusesSince_iff told]
    simp

theorem Batch.flushedIf_first {batch : Batch} (empty : batch.first = none) (must : Bool) :
    (batch.flushedIf must).first = none := by
  cases must with
  | true => rfl
  | false => exact empty

theorem Batch.Pends.first_getD {batch : Batch} {done count : Nat} (pends : batch.Pends done count) :
    batch.first.getD (done + count) = done := by
  rw [pends.first]
  by_cases empty : count = 0 <;> simp [empty]

namespace Launch

variable {World : Type} {catalog : Catalog} {launch : Launch World} {execution : Execution World}
  {batch : Batch} {done count step : Nat}

/-- The instances introduced by the batch are known to the execution by their names. -/
def Knows (launch : Launch World) (batch : Batch) (execution : Execution World) : Prop :=
  ∀ id ∈ batch.declared, ∃ shared, launch.table.get? id = some shared ∧
    execution.declared.lookup id = some shared.symbol

/-- The steps before `step` have been enqueued, and the batch holds those that have not run. -/
def Enqueued (launch : Launch World) (step : Nat) (batch : Batch)
    (execution : Execution World) : Prop :=
  ∃ done count, done + count = step ∧ batch.Pends done count ∧ launch.Knows batch execution ∧
    launch.Running done count (Context.Tracks.settled done step []) execution.context

/-! ### The parts of one operator -/

theorem introduction_runs (knows : launch.Knows batch execution) {shared : Instance}
    (found : launch.table.get? shared.id = some shared) :
    ∃ after, launch.runs execution (batch.introduction shared.id) = .ok after ∧
      after.context = execution.context ∧ launch.Knows (batch.introduce shared.id) after := by
  by_cases declared : batch.declared.contains shared.id = true
  · refine ⟨execution, ?_, rfl, ?_⟩
    · rw [Batch.introduction, if_pos declared]
      rfl
    · rw [Batch.introduce, if_pos declared]
      exact knows
  · refine ⟨{ execution with declared := (shared.id, shared.symbol) :: execution.declared },
      ?_, rfl, ?_⟩
    · rw [Batch.introduction, if_neg declared]
      simp only [runs, List.foldlM_cons, List.foldlM_nil, Execution.step, Execution.declare, found,
        ok_bind]
      rfl
    · intro id member
      rw [List.lookup_cons]
      by_cases same : id = shared.id
      · subst same
        exact ⟨shared, found, by simp⟩
      · rcases Batch.mem_introduce.mp member with isNew | member
        · exact absurd isNew same
        · obtain ⟨other, isOther, known⟩ := knows id member
          have unlike : (id == shared.id) = false := by simpa using same
          exact ⟨other, isOther, by simp [unlike, known]⟩

theorem flush_runs (ready : launch.Ready catalog)
    (running : launch.Running done count (Context.Tracks.settled done (done + count) [])
      execution.context) (inside : done + count ≤ launch.graph.operators.length) :
    ∃ after, launch.runs execution [.flush] = .ok after ∧
      after.declared = execution.declared ∧
      launch.Running (done + count) 0
        (Context.Tracks.settled (done + count) (done + count) []) after.context := by
  obtain ⟨context, flushed, finished⟩ := running.flush ready inside
  refine ⟨{ execution with context }, ?_, rfl, finished⟩
  simp only [runs, List.foldlM_cons, List.foldlM_nil, Execution.step, flushed,
    Execution.withOutcome, ok_bind]
  rfl

/-- A flush that may be left out, and the batch with it. -/
theorem flushIf_runs (ready : launch.Ready catalog)
    (enqueued : launch.Enqueued step batch execution)
    (inside : step ≤ launch.graph.operators.length) (must : Bool) :
    ∃ after, launch.runs execution (flushIf must) = .ok after ∧
      launch.Enqueued step (batch.flushedIf must) after := by
  cases must with
  | false => exact ⟨execution, rfl, enqueued⟩
  | true =>
    obtain ⟨done, count, rfl, _, knows, running⟩ := enqueued
    obtain ⟨after, flushed, declared, finished⟩ := flush_runs ready running inside
    refine ⟨after, flushed, done + count, 0, rfl, batch.pends_flushed _, ?_, finished⟩
    intro id member
    rw [declared]
    exact knows id member

/-- The outputs of the next step are registered and the step is enqueued. -/
theorem request_runs (ready : launch.Ready catalog)
    (running : launch.Running done count (Context.Tracks.settled done (done + count) [])
      execution.context) {operator : Operator} {shared : Instance}
    (present : launch.graph.operators[done + count]? = some operator)
    (assigned : launch.table.instanceOf? (done + count) = some shared)
    (known : execution.declared.lookup shared.id = some shared.symbol) :
    launch.Registers execution (operator.outputs.map Step.register ++
        [.enqueue (done + count) (done + count) shared.id])
      (fun left right => left.name ∈ operator.outputs ∧
        launch.Clash (Context.Tracks.settled done (done + count + 1) []) left right)
      fun after => after.declared = execution.declared ∧
        launch.Running done (count + 1) (Context.Tracks.settled done (done + count + 1) [])
          after.context := by
  have inside := (List.getElem?_eq_some_iff.mp present).1
  have found : launch.evaluation? (done + count) =
      some ⟨launch.kernel (done + count) shared.symbol, operator.inputs, operator.outputs⟩ := by
    unfold Launch.evaluation?
    rw [present, assigned]
    rfl
  refine (running.registerOutputs ready present).andThen ?_
  rintro middle ⟨declared, reached⟩
  obtain ⟨context, enqueued, finished⟩ := reached.enqueue ready inside found
  refine ⟨{ middle with context }, ?_, declared, finished⟩
  simp only [runs, List.foldlM_cons, List.foldlM_nil, Execution.step, Execution.enqueue, present,
    declared, known, enqueued, Execution.withOutcome, ok_bind]
  rfl

/-- One operator is assembled, and its steps run unless one of its outputs clashes with what is
there. If a step is left in the queue, the outputs do not take over its slots. -/
theorem assembleOperator_runs (ready : launch.Ready catalog) (batching : Batching) (batch : Batch)
    {operator : Operator} (present : launch.graph.operators[step]? = some operator) :
    ∃ steps next done,
      (done = step ∨ batch.first ≠ none ∧ launch.plan.AvailableBefore done operator.outputs) ∧
      assembleOperator launch.plan launch.table batching step operator batch = .ok (steps, next) ∧
      (batching.emission = .eager → next.first = none) ∧
      (∀ step ∈ steps, step.Refers launch.graph launch.plan launch.table) ∧
      ∀ execution, launch.Enqueued step batch execution →
        launch.Registers execution steps
          (fun left right => left.name ∈ operator.outputs ∧
            launch.Clash (Context.Tracks.settled done (step + 1) []) left right)
          (launch.Enqueued (step + 1) next) := by
  have inside := (List.getElem?_eq_some_iff.mp present).1
  obtain ⟨shared, assigned, found⟩ := ready.serves.instanceOf? inside
  have planned : ∀ name ∈ operator.outputs, ∃ entry, launch.plan.entry? name = some entry := by
    intro name member
    obtain ⟨lifetime, listed, rfl⟩ :=
      ready.recorded.exact.exists_of_writes ⟨operator, present, member⟩
    obtain ⟨entry, _, isEntry, _⟩ := ready.recorded.entry listed
    exact ⟨entry, isEntry⟩
  obtain ⟨must, barrier, free⟩ := Plan.mustFlush_eq_ok (batch.introduce shared.id) planned
  have assembled := assembleOperator_eq launch.plan batching operator batch assigned
  rw [barrier, ok_bind] at assembled
  refine ⟨_, _, ((batch.introduce shared.id).flushedIf must).first.getD step, ?_, assembled, ?_,
    operatorSteps_refer inside found planned, ?_⟩
  · cases waits : ((batch.introduce shared.id).flushedIf must).first with
    | none => exact .inl rfl
    | some first =>
      refine .inr ⟨fun empty => ?_, free first waits⟩
      rw [Batch.flushedIf_first ((Batch.introduce_first batch shared.id).trans empty)] at waits
      cases waits
  · intro eager
    simp only [Batch.isFull, eager]
    rfl
  · rintro execution ⟨done, count, same, pends, knows, running⟩
    obtain ⟨introduced, ran₁, sameContext, known₁⟩ := introduction_runs knows found
    rw [← sameContext] at running
    obtain ⟨waiting, ran₂, done₂, count₂, rfl, pends₂, known₂, running₂⟩ := flushIf_runs ready
      ⟨done, count, same, pends.introduce shared.id, known₁, running⟩ (Nat.le_of_lt inside) must
    have declared : waiting.declared.lookup shared.id = some shared.symbol := by
      obtain ⟨other, isOther, known⟩ := known₂ shared.id (by simp [Batch.mem_introduce])
      obtain rfl := Option.some.inj (found.symm.trans isOther)
      exact known
    rw [pends₂.first_getD]
    unfold operatorSteps
    rw [List.append_assoc (_ ++ _) (operator.outputs.map Step.register)]
    refine (Registers.prepend ((runs_append ran₁ _).trans ran₂)
      (request_runs ready running₂ present assigned declared)).andThen ?_
    rintro requested ⟨sameDeclared, running₃⟩
    refine flushIf_runs ready ⟨done₂, count₂ + 1, rfl, pends₂.push, ?_, running₃⟩ inside _
    intro id member
    rw [sameDeclared]
    exact known₂ id member

end Launch

end TensorArena
