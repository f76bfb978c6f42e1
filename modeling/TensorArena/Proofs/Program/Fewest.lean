import TensorArena.Proofs.Program.Sequence

/-!
# The fewest flushes

The flushes of a program divide the execution into batches. A lazy program puts a flush off as long
as it can. At any time, the batch it is filling starts no earlier than that of any other division
into batches, so no division has fewer.
-/

set_option autoImplicit false

namespace TensorArena

/-- The evaluations that every flush of a piece of a program finds waiting. -/
def flushedBatches : List Nat → List Step → List (List Nat)
  | _, [] => []
  | waiting, step :: rest =>
    (if step = .flush then [waiting] else []) ++ flushedBatches (step.wait waiting) rest

theorem length_flushedBatches (waiting : List Nat) (steps : List Step) :
    (flushedBatches waiting steps).length = steps.count .flush := by
  induction steps generalizing waiting with
  | nil => rfl
  | cons step rest ih =>
    rw [flushedBatches, List.length_append, ih, List.count_cons]
    by_cases flush : step = .flush <;> simp [flush, Nat.add_comm]

theorem flushedBatches_append (waiting : List Nat) (first second : List Step) :
    flushedBatches waiting (first ++ second) =
      flushedBatches waiting first ++ flushedBatches (first.foldl Step.wait waiting) second := by
  induction first generalizing waiting with
  | nil => rfl
  | cons step rest ih =>
    rw [List.cons_append, flushedBatches, flushedBatches, ih, List.foldl_cons, List.append_assoc]

theorem flushedBatches_of_idle {steps : List Step} {waiting : List Nat}
    (idle : ∀ step ∈ steps, step ≠ .flush ∧ ∀ waiting, step.wait waiting = waiting) :
    flushedBatches waiting steps = [] := by
  induction steps with
  | nil => rfl
  | cons step rest ih =>
    obtain ⟨unflushed, unchanged⟩ := idle step (by simp)
    rw [flushedBatches, if_neg unflushed, unchanged, List.nil_append]
    exact ih fun other member => idle other (by simp [member])

theorem flushedBatches_flushIf (waiting : List Nat) (must : Bool) :
    flushedBatches waiting (flushIf must) = if must then [waiting] else [] := by
  cases must <;> rfl

/-- What waits for the first flush of an operator's steps waits for the second one otherwise. -/
theorem flushedBatches_operatorSteps (batch : Batch) (step : Nat) (operator : Operator) (id : Nat)
    (must full : Bool) (waiting : List Nat) :
    flushedBatches waiting (operatorSteps batch step operator id must full) =
      (if must then [waiting] else []) ++
        if full then [(flushIf must).foldl Step.wait waiting ++ [step]] else [] := by
  have introduction := introduction_idle batch id
  have registers := registers_idle operator.outputs
  unfold operatorSteps
  simp only [flushedBatches_append, List.foldl_append, flushedBatches_of_idle introduction,
    foldl_wait_of_idle introduction, flushedBatches_of_idle registers,
    foldl_wait_of_idle registers, flushedBatches_flushIf, flushedBatches, List.foldl_cons,
    List.foldl_nil, Step.wait, reduceCtorEq, ↓reduceIte, List.nil_append, List.append_nil]

namespace Graph

/-- The steps of a block may wait for a flush together: they are within the limit, and no output of
a later one takes over a slot that is given back by the first one or after it. -/
def Batchable (graph : Graph) (plan : Plan) (limit : Option Nat) : List Nat → Prop
  | [] => False
  | first :: rest =>
    (∀ most ∈ limit, rest.length + 1 ≤ most) ∧
      ∀ later ∈ rest, ∀ operator, graph.operators[later]? = some operator →
        plan.AvailableBefore first operator.outputs

/-- The execution from a step on is divided into blocks that may wait together. -/
structure Batches (graph : Graph) (plan : Plan) (limit : Option Nat) (start : Nat)
    (blocks : List (List Nat)) : Prop where
  whole : blocks.flatten = graph.executionOrder.drop start
  batchable : ∀ block ∈ blocks, graph.Batchable plan limit block

variable {graph : Graph} {plan : Plan} {limit : Option Nat} {start step : Nat}
  {blocks : List (List Nat)}

theorem executionOrder_drop (graph : Graph) (start : Nat) :
    graph.executionOrder.drop start = List.range' start (graph.operators.length - start) := by
  rw [executionOrder, List.range_eq_range', List.drop_range']
  simp

/-! ### Other divisions -/

namespace Batches

/-- The first block of a division. -/
theorem cut (batches : graph.Batches plan limit start blocks)
    (inside : start < graph.operators.length) :
    ∃ more others, blocks = List.range' start (more + 1) :: others ∧
      graph.Batchable plan limit (List.range' start (more + 1)) ∧
      graph.Batches plan limit (start + (more + 1)) others := by
  have whole := batches.whole
  rw [executionOrder_drop] at whole
  cases blocks with
  | nil =>
    have := congrArg List.length whole
    simp at this
    omega
  | cons block others =>
    have first := batches.batchable block List.mem_cons_self
    rw [List.flatten_cons] at whole
    obtain ⟨size, _, rfl, rest⟩ := List.range'_eq_append_iff.mp whole.symm
    cases size with
    | zero => exact first.elim
    | succ more =>
      refine ⟨more, others, rfl, first, ?_, fun other member =>
        batches.batchable other (List.mem_cons_of_mem _ member)⟩
      rw [executionOrder_drop, rest, Nat.mul_one, Nat.sub_sub]

/-- A block ends before a step that takes over a slot from one of its own. -/
theorem behind_barrier (batches : graph.Batches plan limit start blocks) {first : Nat}
    {operator : Operator} (present : graph.operators[step]? = some operator)
    (order : start ≤ first) (before : first < step)
    (reused : ¬ plan.AvailableBefore first operator.outputs) :
    ∃ next others, next ≤ step ∧ graph.Batches plan limit next others ∧
      others.length + 1 = blocks.length := by
  have inside := (List.getElem?_eq_some_iff.mp present).1
  obtain ⟨more, others, rfl, ⟨_, free⟩, rest⟩ := batches.cut (by omega)
  refine ⟨start + (more + 1), others, ?_, rest, rfl⟩
  by_contra beyond
  have later : step ∈ List.range' (start + 1) more := List.mem_range'_1.mpr (by omega)
  apply reused
  intro name member entry found available noted
  have := free step later operator present name member entry found available noted
  omega

/-- A block ends at the limit. -/
theorem behind_limit (batches : graph.Batches plan limit start blocks) {most : Nat}
    (limited : most ∈ limit) (inside : start < graph.operators.length) :
    ∃ next others, next ≤ start + most ∧ graph.Batches plan limit next others ∧
      others.length + 1 = blocks.length := by
  obtain ⟨more, others, rfl, ⟨few, _⟩, rest⟩ := batches.cut inside
  refine ⟨start + (more + 1), others, ?_, rest, rfl⟩
  have := few most limited
  rw [List.length_range'] at this
  omega

end Batches

end Graph

section Rest

variable {graph : Graph} {plan : Plan} {table : InstanceTable} {batching : Batching}
  {limit : Option Nat}

/-! ### The division of a program -/

/-- All evaluations are flushed, in their order. -/
theorem assembleFrom_flatten {operators : List Operator} :
    ∀ {step : Nat} {batch : Batch} {waiting : List Nat} {steps : List Step},
      batch.Awaits step waiting →
      assembleFrom plan table batching step operators batch = .ok steps →
      (flushedBatches waiting steps).flatten = waiting ++ List.range' step operators.length := by
  induction operators with
  | nil =>
    intro step batch waiting steps awaits success
    rw [assembleFrom_nil_eq_ok success, flushedBatches_flushIf]
    rw [← awaits.length_eq]
    cases waiting <;> simp
  | cons operator rest ih =>
    intro step batch waiting steps awaits success
    obtain ⟨shared, must, others, _, _, found, rfl⟩ := assembleFrom_cons_eq_ok success
    have remaining := ih (awaits.next batching operator shared.id must) found
    rw [flushedBatches_append, List.flatten_append, remaining, foldl_wait_operatorSteps,
      flushedBatches_operatorSteps, List.length_cons, List.range'_succ]
    cases must <;> cases (batch.joined shared.id step _).isFull batching <;>
      simp [flushIf, Step.wait]

/-- The next step joins what waits, behind the barrier if there is one. -/
theorem batchable_joined {batch : Batch} {waiting : List Nat} {step id : Nat} {must : Bool}
    {operator : Operator} (present : graph.operators[step]? = some operator)
    (awaits : batch.Awaits step waiting)
    (barrier : plan.mustFlush (batch.introduce id) operator.outputs = .ok must)
    (batchable : waiting ≠ [] → graph.Batchable plan limit waiting)
    (room : ∀ most ∈ limit, batch.pending < most) :
    graph.Batchable plan limit ((flushIf must).foldl Step.wait waiting ++ [step]) := by
  have alone : graph.Batchable plan limit [step] :=
    ⟨fun most limited => Nat.zero_lt_of_lt (room most limited), nofun⟩
  cases must with
  | true => exact alone
  | false =>
    obtain ⟨done, count, rfl, pends, rfl⟩ := awaits
    cases count with
    | zero => exact alone
    | succ count =>
      obtain ⟨_, free⟩ := batchable (by simp)
      have first : (batch.introduce id).first = some done := by
        rw [Batch.introduce_first, pends.first, if_neg (Nat.succ_ne_zero count)]
      have unused : plan.AvailableBefore done operator.outputs := by
        by_contra reused
        cases (Plan.mustFlush_iff barrier).mpr ⟨done, first, reused⟩
      refine ⟨fun most limited => ?_, fun later member other isOther => ?_⟩
      · have := room most limited
        rw [pends.pending] at this
        simp only [List.append_eq, List.length_append, List.length_range', List.length_singleton]
        omega
      · rcases List.mem_append.mp member with before | now
        · exact free later before other isOther
        · rw [List.mem_singleton.mp now] at isOther
          exact Option.some.inj (present.symm.trans isOther) ▸ unused

/-- Every flush ends a block of steps that may wait together. -/
theorem assembleFrom_batchable {operators : List Operator}
    (positive : ∀ most ∈ limit, 0 < most)
    (unfilled : ∀ batch : Batch, batch.isFull batching = false →
      ∀ most ∈ limit, batch.pending < most) :
    ∀ {step : Nat} {batch : Batch} {waiting : List Nat} {steps : List Step},
      graph.operators.drop step = operators → batch.Awaits step waiting →
      (waiting ≠ [] → graph.Batchable plan limit waiting) →
      (∀ most ∈ limit, batch.pending < most) →
      assembleFrom plan table batching step operators batch = .ok steps →
      ∀ block ∈ flushedBatches waiting steps, graph.Batchable plan limit block := by
  induction operators with
  | nil =>
    intro step batch waiting steps _ awaits batchable _ success block member
    rw [assembleFrom_nil_eq_ok success, flushedBatches_flushIf, ← awaits.length_eq] at member
    cases waiting with
    | nil => cases member
    | cons first rest =>
      obtain rfl := List.mem_singleton.mp member
      exact batchable nofun
  | cons operator rest ih =>
    intro step batch waiting steps walked awaits batchable room success
    obtain ⟨present, next⟩ := of_drop_eq_cons walked
    obtain ⟨shared, must, others, _, barrier, found, rfl⟩ := assembleFrom_cons_eq_ok success
    have joined := batchable_joined present awaits barrier batchable room
    have remaining := ih next (awaits.next batching operator shared.id must) (by
      rw [foldl_wait_operatorSteps]
      cases (batch.joined shared.id step must).isFull batching with
      | true => exact fun waits => absurd rfl waits
      | false => exact fun _ => joined) (by
      unfold Batch.next
      cases full : (batch.joined shared.id step must).isFull batching with
      | true => exact positive
      | false => exact unfilled _ full) found
    intro block member
    rw [flushedBatches_append, flushedBatches_operatorSteps, List.append_assoc] at member
    rcases List.mem_append.mp member with flushed | member
    · cases must with
      | false => cases flushed
      | true =>
        obtain rfl := List.mem_singleton.mp flushed
        obtain ⟨first, waits, _⟩ := Plan.first_of_mustFlush barrier
        rw [Batch.introduce_first] at waits
        exact batchable (awaits.ne_nil waits)
    · rcases List.mem_append.mp member with ended | later
      · split at ended
        · obtain rfl := List.mem_singleton.mp ended
          exact joined
        · cases ended
      · exact remaining block later

/-! ### No division has fewer blocks -/

/-- Another division that is not ahead before the barrier of a step is not ahead behind it. -/
theorem behind_flushIf {batch : Batch} {waiting : List Nat} {step start id : Nat} {must : Bool}
    {operator : Operator} {blocks : List (List Nat)}
    (present : graph.operators[step]? = some operator) (awaits : batch.Awaits step waiting)
    (barrier : plan.mustFlush (batch.introduce id) operator.outputs = .ok must)
    (behind : start + waiting.length ≤ step)
    (batches : graph.Batches plan limit start blocks) :
    ∃ next others, next + ((flushIf must).foldl Step.wait waiting).length ≤ step ∧
      graph.Batches plan limit next others ∧
      (if must then [waiting] else []).length + others.length = blocks.length := by
  cases must with
  | false => exact ⟨start, blocks, behind, batches, Nat.zero_add _⟩
  | true =>
    obtain ⟨first, waits, reused⟩ := (Plan.mustFlush_iff barrier).mp rfl
    rw [Batch.introduce_first] at waits
    obtain ⟨done, count, rfl, pends, rfl⟩ := awaits
    rw [pends.first] at waits
    split at waits
    · cases waits
    · obtain rfl := Option.some.inj waits
      rw [List.length_range'] at behind
      obtain ⟨next, others, order, rest, fewer⟩ :=
        batches.behind_barrier present (by omega) (by omega) reused
      exact ⟨next, others, order, rest, (Nat.add_comm _ _).trans fewer⟩

/-- The same holds of the flush of a full batch. -/
theorem behind_full {batch : Batch} {waiting : List Nat} {step start : Nat}
    {blocks : List (List Nat)} (inside : step < graph.operators.length)
    (awaits : batch.Awaits (step + 1) waiting) (behind : start + waiting.length ≤ step + 1)
    (waits : waiting ≠ []) (batches : graph.Batches plan limit start blocks) :
    ∃ next others,
      next + ((flushIf (batch.isFull ⟨.lazy, limit⟩)).foldl Step.wait waiting).length ≤ step + 1 ∧
      graph.Batches plan limit next others ∧
      (if batch.isFull ⟨.lazy, limit⟩ then [waiting] else []).length + others.length =
        blocks.length := by
  cases full : batch.isFull ⟨.lazy, limit⟩ with
  | false => exact ⟨start, blocks, behind, batches, Nat.zero_add _⟩
  | true =>
    obtain ⟨most, limited, reached⟩ : ∃ most ∈ limit, most ≤ batch.pending := by
      simpa [Batch.isFull, Option.any_eq_true] using full
    have := List.length_pos_of_ne_nil waits
    obtain ⟨next, others, order, rest, fewer⟩ := batches.behind_limit limited (by omega)
    rw [← awaits.length_eq] at reached
    exact ⟨next, others, by simp [flushIf, Step.wait]; omega, rest,
      (Nat.add_comm _ _).trans fewer⟩

/-- The lazy program stays ahead of every division, and so ends no more batches. -/
theorem assembleFrom_fewest {operators : List Operator} :
    ∀ {step start : Nat} {batch : Batch} {waiting : List Nat} {steps : List Step}
      {blocks : List (List Nat)},
      graph.operators.drop step = operators → step ≤ graph.operators.length →
      batch.Awaits step waiting → start + waiting.length ≤ step →
      graph.Batches plan limit start blocks →
      assembleFrom plan table ⟨.lazy, limit⟩ step operators batch = .ok steps →
      (flushedBatches waiting steps).length ≤ blocks.length := by
  induction operators with
  | nil =>
    intro step start batch waiting steps blocks walked inside awaits behind batches success
    rw [assembleFrom_nil_eq_ok success, flushedBatches_flushIf, ← awaits.length_eq]
    cases waiting with
    | nil => exact Nat.zero_le _
    | cons first rest =>
      -- The division has a block for the steps that wait at the end.
      rw [List.length_cons] at behind
      obtain ⟨more, others, rfl, _⟩ := batches.cut (by omega)
      exact Nat.succ_le_succ (Nat.zero_le _)
  | cons operator rest ih =>
    intro step start batch waiting steps blocks walked inside awaits behind batches success
    obtain ⟨present, next⟩ := of_drop_eq_cons walked
    obtain ⟨shared, must, others, _, barrier, found, rfl⟩ := assembleFrom_cons_eq_ok success
    have bound := (List.getElem?_eq_some_iff.mp present).1
    obtain ⟨start₁, blocks₁, behind₁, batches₁, fewer₁⟩ :=
      behind_flushIf present awaits barrier behind batches
    have joined := awaits.joined shared.id must
    obtain ⟨start₂, blocks₂, behind₂, batches₂, fewer₂⟩ := behind_full bound joined (by
      rw [List.length_append, List.length_singleton]
      omega) (by simp) batches₁
    have remaining := ih next bound (awaits.next ⟨.lazy, limit⟩ operator shared.id must) (by
      rw [foldl_wait_operatorSteps]
      exact behind₂) batches₂ found
    rw [flushedBatches_append, flushedBatches_operatorSteps, List.length_append,
      List.length_append]
    omega

end Rest

/-! ### Whole programs -/

section Program

variable {graph : Graph} {lifetimes : Lifetimes} {options : ArenaOptions} {plan : Plan}
  {table : InstanceTable} {limit : Option Nat} {steps : List Step}

theorem flushedBatches_registers (names : List String) (body : List Step) :
    flushedBatches [] (names.map Step.register ++ body) = flushedBatches [] body := by
  rw [flushedBatches_append, flushedBatches_of_idle (registers_idle names),
    foldl_wait_of_idle (registers_idle names), List.nil_append]

/-- The flushes of a program divide the execution into blocks that may wait together, for every
limit that its batches respect. -/
theorem Graph.Planned.batches (planned : graph.Planned lifetimes options plan)
    {batching : Batching} (positive : ∀ most ∈ limit, 0 < most)
    (unfilled : ∀ batch : Batch, batch.isFull batching = false →
      ∀ most ∈ limit, batch.pending < most)
    (success : graph.assemble plan table batching = .ok steps) :
    graph.Batches plan limit 0 (flushedBatches [] steps) := by
  obtain ⟨body, assembled, rfl⟩ := Graph.assemble_eq_ok planned success
  rw [flushedBatches_registers]
  constructor
  · rw [assembleFrom_flatten .initial assembled, executionOrder_drop]
    rfl
  · exact assembleFrom_batchable positive unfilled (List.drop_zero ..) .initial
      (fun waits => absurd rfl waits) positive assembled

theorem Graph.Planned.fewest (planned : graph.Planned lifetimes options plan)
    (success : graph.assemble plan table ⟨.lazy, limit⟩ = .ok steps) {blocks : List (List Nat)}
    (batches : graph.Batches plan limit 0 blocks) : steps.count .flush ≤ blocks.length := by
  obtain ⟨body, assembled, rfl⟩ := Graph.assemble_eq_ok planned success
  rw [← length_flushedBatches [], flushedBatches_registers]
  exact assembleFrom_fewest (List.drop_zero ..) (Nat.zero_le _) .initial (Nat.zero_le _) batches
    assembled

theorem Graph.Planned.exists_assemble (planned : graph.Planned lifetimes options plan)
    {catalog : Catalog} (shared : graph.shareInstances catalog = .ok table) (batching : Batching) :
    ∃ steps, graph.assemble plan table batching = .ok steps := by
  have sound : Launch.Sound options catalog
      ⟨graph, lifetimes, plan, table, fun _ symbol => .idle Unit symbol, ()⟩ :=
    ⟨planned, shareInstances_eq_ok shared, fun _ _ _ _ _ => rfl⟩
  obtain ⟨steps, _, assembled, _⟩ := sound.assemble_runs batching
  exact ⟨steps, assembled⟩

/-- A limit that is raised or removed permits the same blocks. -/
theorem Graph.Batches.relax {start : Nat} {blocks : List (List Nat)}
    (batches : graph.Batches plan limit start blocks) {larger : Option Nat}
    (raised : ∀ more ∈ larger, ∃ most ∈ limit, most ≤ more) :
    graph.Batches plan larger start blocks := by
  refine ⟨batches.whole, fun block member => ?_⟩
  have batchable := batches.batchable block member
  cases block with
  | nil => exact batchable.elim
  | cons first rest =>
    refine ⟨fun more isLarger => ?_, batchable.2⟩
    obtain ⟨most, limited, order⟩ := raised more isLarger
    exact Nat.le_trans (batchable.1 most limited) order

end Program

/-- Lazy batching flushes as seldom as can be. For every graph that has been checked, analysed,
planned and given its instances, and every limit but zero, the flushes of the lazy program end the
blocks of a division of the execution. A block of a division is within the limit, and no output of
a later step of the block notes a release by the first step of it or one behind. No division has
fewer blocks. So the program does not flush more often when the limit is raised or removed, and not
more often than an eager program. -/
theorem Graph.lazy_flushes_fewest (graph : Graph) (catalog : Catalog) (options : ArenaOptions)
    (lifetimes : Lifetimes) (plan : Plan) (table : InstanceTable) (limit : Option Nat)
    (analysed : graph.lifetimes = .ok lifetimes)
    (planned : graph.plan lifetimes options = .ok plan)
    (shared : graph.shareInstances catalog = .ok table) (positive : ∀ most ∈ limit, 0 < most) :
    ∃ steps, graph.assemble plan table ⟨.lazy, limit⟩ = .ok steps ∧
      graph.Batches plan limit 0 (flushedBatches [] steps) ∧
      steps.count .flush = (flushedBatches [] steps).length ∧
      (∀ blocks, graph.Batches plan limit 0 blocks → steps.count .flush ≤ blocks.length) ∧
      (∀ larger : Option Nat, (∀ more ∈ larger, ∃ most ∈ limit, most ≤ more) →
        ∃ others, graph.assemble plan table ⟨.lazy, larger⟩ = .ok others ∧
          others.count .flush ≤ steps.count .flush) ∧
      ∀ ignored : Option Nat, ∃ others, graph.assemble plan table ⟨.eager, ignored⟩ = .ok others ∧
        steps.count .flush ≤ others.count .flush := by
  have arranged := Planned.of_eq_ok analysed planned
  obtain ⟨steps, assembled⟩ := arranged.exists_assemble shared ⟨.lazy, limit⟩
  have batches := arranged.batches positive (fun batch unfilled most limited => by
    simpa [Batch.isFull, Option.mem_def.mp limited] using unfilled) assembled
  refine ⟨steps, assembled, batches, (length_flushedBatches [] steps).symm, ?_, ?_, ?_⟩
  · exact fun blocks divided => arranged.fewest assembled divided
  · intro larger raised
    obtain ⟨others, isOther⟩ := arranged.exists_assemble shared ⟨.lazy, larger⟩
    refine ⟨others, isOther, ?_⟩
    rw [← length_flushedBatches [] steps]
    exact arranged.fewest isOther (batches.relax raised)
  · intro ignored
    obtain ⟨others, isOther⟩ := arranged.exists_assemble shared ⟨.eager, ignored⟩
    have full (batch : Batch) : batch.isFull ⟨.eager, ignored⟩ = true := rfl
    refine ⟨others, isOther, ?_⟩
    rw [← length_flushedBatches [] others]
    exact arranged.fewest assembled (arranged.batches positive
      (fun batch unfilled => absurd (unfilled.symm.trans (full batch)) Bool.false_ne_true) isOther)

theorem Graph.relay_flushes_fewest :
    ∃ lifetimes plan table, relay.lifetimes = .ok lifetimes ∧
      relay.plan lifetimes {} = .ok plan ∧ relay.shareInstances .standard = .ok table ∧
      (∀ most ∈ some 2, 0 < most) ∧
      ∃ steps, relay.assemble plan table ⟨.lazy, some 2⟩ = .ok steps ∧
        relay.Batches plan (some 2) 0 (flushedBatches [] steps) ∧
        ∀ blocks, relay.Batches plan (some 2) 0 blocks → steps.count .flush ≤ blocks.length :=
  ⟨_, _, _, rfl, rfl, rfl, by simp,
    (lazy_flushes_fewest relay .standard {} _ _ _ (some 2) rfl rfl rfl (by simp)).imp
      fun _ facts => ⟨facts.1, facts.2.1, facts.2.2.2.1⟩⟩

end TensorArena
