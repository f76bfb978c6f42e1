import TensorArena.Proofs.Program.Assembly

/-!
# Batches

The assembler keeps count of the evaluations that wait for a flush. Its count agrees with the steps
it has written: a flush always finds an evaluation waiting, a limit is never exceeded, and nothing
waits at the end of the program.
-/

set_option autoImplicit false

namespace TensorArena

/-- The evaluations that wait behind a step, by the steps of the execution they belong to. -/
def Step.wait (waiting : List Nat) : Step → List Nat
  | .enqueue step _ _ => waiting ++ [step]
  | .flush => []
  | _ => waiting

/-- The evaluations that wait at the end of a piece of a program. -/
def waitingAfter (steps : List Step) : List Nat := steps.foldl Step.wait []

/-- Every flush finds an evaluation waiting, and no more than the limit wait at a time. -/
def Paced (limit : Option Nat) : List Nat → List Step → Prop
  | _, [] => True
  | waiting, step :: rest =>
    (step = .flush → waiting ≠ []) ∧ (∀ most ∈ limit, (step.wait waiting).length ≤ most) ∧
      Paced limit (step.wait waiting) rest

theorem paced_append {limit : Option Nat} {first second : List Step} {waiting : List Nat} :
    Paced limit waiting (first ++ second) ↔
      Paced limit waiting first ∧ Paced limit (first.foldl Step.wait waiting) second := by
  induction first generalizing waiting with
  | nil => simp [Paced]
  | cons step rest ih => simp only [List.cons_append, Paced, ih, List.foldl_cons, and_assoc]

/-- Steps that neither enqueue nor flush do not disturb the pace. -/
theorem paced_of_idle {limit : Option Nat} {steps : List Step} {waiting : List Nat}
    (idle : ∀ step ∈ steps, step ≠ .flush ∧ ∀ waiting, step.wait waiting = waiting)
    (few : ∀ most ∈ limit, waiting.length ≤ most) : Paced limit waiting steps := by
  induction steps with
  | nil => trivial
  | cons step rest ih =>
    obtain ⟨unflushed, unchanged⟩ := idle step (by simp)
    refine ⟨fun flush => absurd flush unflushed, ?_, ?_⟩
    · rw [unchanged]
      exact few
    · rw [unchanged]
      exact ih fun other member => idle other (by simp [member])

theorem foldl_wait_of_idle {steps : List Step} {waiting : List Nat}
    (idle : ∀ step ∈ steps, step ≠ .flush ∧ ∀ waiting, step.wait waiting = waiting) :
    steps.foldl Step.wait waiting = waiting := by
  induction steps with
  | nil => rfl
  | cons step rest ih =>
    rw [List.foldl_cons, (idle step (by simp)).2]
    exact ih fun other member => idle other (by simp [member])

theorem introduction_idle (batch : Batch) (id : Nat) :
    ∀ step ∈ batch.introduction id, step ≠ .flush ∧ ∀ waiting, step.wait waiting = waiting := by
  intro step member
  unfold Batch.introduction at member
  split at member
  · cases member
  · rcases List.mem_cons.mp member with rfl | member
    · exact ⟨nofun, fun _ => rfl⟩
    · rw [List.mem_singleton.mp member]
      exact ⟨nofun, fun _ => rfl⟩

theorem registers_idle (names : List String) :
    ∀ step ∈ names.map Step.register,
      step ≠ .flush ∧ ∀ waiting, step.wait waiting = waiting := by
  intro step member
  obtain ⟨name, _, rfl⟩ := List.mem_map.mp member
  exact ⟨nofun, fun _ => rfl⟩

/-! ### One operator -/

namespace Batch

/-- The batch agrees with the evaluations that wait before a step of the execution: they are the
last ones before it. -/
def Awaits (step : Nat) (waiting : List Nat) (batch : Batch) : Prop :=
  ∃ done count, done + count = step ∧ batch.Pends done count ∧ waiting = List.range' done count

/-- The batch when the next evaluation has joined it. -/
def joined (batch : Batch) (id step : Nat) (must : Bool) : Batch :=
  ((batch.introduce id).flushedIf must).push step

/-- The batch behind an operator. -/
def next (batch : Batch) (batching : Batching) (id step : Nat) (must : Bool) : Batch :=
  (batch.joined id step must).flushedIf ((batch.joined id step must).isFull batching)

namespace Awaits

theorem initial : ({} : Batch).Awaits 0 [] := ⟨0, 0, rfl, ⟨rfl, rfl⟩, rfl⟩

variable {batch : Batch} {step : Nat} {waiting : List Nat}

theorem introduce (awaits : batch.Awaits step waiting) (id : Nat) :
    (batch.introduce id).Awaits step waiting := by
  obtain ⟨done, count, whole, pends, rfl⟩ := awaits
  exact ⟨done, count, whole, pends.introduce id, rfl⟩

theorem flushedIf (awaits : batch.Awaits step waiting) (must : Bool) :
    (batch.flushedIf must).Awaits step ((flushIf must).foldl Step.wait waiting) := by
  cases must with
  | false => exact awaits
  | true => exact ⟨step, 0, rfl, batch.pends_flushed step, rfl⟩

theorem push (awaits : batch.Awaits step waiting) :
    (batch.push step).Awaits (step + 1) (waiting ++ [step]) := by
  obtain ⟨done, count, rfl, pends, rfl⟩ := awaits
  refine ⟨done, count + 1, rfl, pends.push, ?_⟩
  rw [List.range'_concat, Nat.one_mul]

theorem length_eq (awaits : batch.Awaits step waiting) : waiting.length = batch.pending := by
  obtain ⟨done, count, _, pends, rfl⟩ := awaits
  rw [List.length_range', pends.pending]

theorem ne_nil (awaits : batch.Awaits step waiting) {first : Nat}
    (waits : batch.first = some first) : waiting ≠ [] := by
  obtain ⟨done, count, _, pends, rfl⟩ := awaits
  rw [pends.first] at waits
  intro empty
  rw [List.range'_eq_nil_iff] at empty
  rw [if_pos empty] at waits
  cases waits

/-- The steps from the first of the batch on wait. -/
theorem mem_iff (awaits : batch.Awaits step waiting) {first other : Nat}
    (waits : batch.first = some first) : other ∈ waiting ↔ first ≤ other ∧ other < step := by
  obtain ⟨done, count, rfl, pends, rfl⟩ := awaits
  rw [pends.first] at waits
  split at waits
  · cases waits
  · obtain rfl := Option.some.inj waits
    rw [List.mem_range'_1]

end Awaits

end Batch

theorem Plan.first_of_mustFlush {plan : Plan} {batch : Batch} {names : List String}
    (flushes : plan.mustFlush batch names = .ok true) :
    ∃ first, batch.first = some first ∧ plan.reusesSince first names = .ok true := by
  unfold Plan.mustFlush at flushes
  split at flushes
  · cases flushes
  · rename_i first waits
    exact ⟨first, waits, flushes⟩

section Operator

variable {plan : Plan} {table : InstanceTable} {batching : Batching} {limit : Option Nat}
  {batch : Batch} {step : Nat} {operator : Operator} {id : Nat} {must : Bool}
  {waiting : List Nat}

/-- What waits before the outputs of an operator are registered. -/
theorem foldl_wait_barrier (batch : Batch) (id : Nat) (must : Bool) (waiting : List Nat) :
    (batch.introduction id ++ flushIf must).foldl Step.wait waiting =
      (flushIf must).foldl Step.wait waiting := by
  rw [List.foldl_append, foldl_wait_of_idle (introduction_idle batch id)]

theorem foldl_wait_operatorSteps (batch : Batch) (step : Nat) (operator : Operator) (id : Nat)
    (must full : Bool) (waiting : List Nat) :
    (operatorSteps batch step operator id must full).foldl Step.wait waiting =
      (flushIf full).foldl Step.wait ((flushIf must).foldl Step.wait waiting ++ [step]) := by
  unfold operatorSteps
  rw [List.foldl_append, List.foldl_append, List.foldl_append, foldl_wait_barrier,
    foldl_wait_of_idle (registers_idle _)]
  rfl

theorem Batch.Awaits.joined (awaits : batch.Awaits step waiting) (id : Nat) (must : Bool) :
    (batch.joined id step must).Awaits (step + 1)
      ((flushIf must).foldl Step.wait waiting ++ [step]) :=
  ((awaits.introduce id).flushedIf must).push

theorem Batch.Awaits.next (awaits : batch.Awaits step waiting) (batching : Batching)
    (operator : Operator) (id : Nat) (must : Bool) :
    (batch.next batching id step must).Awaits (step + 1)
      ((operatorSteps batch step operator id must
        ((batch.joined id step must).isFull batching)).foldl Step.wait waiting) := by
  rw [foldl_wait_operatorSteps]
  exact (awaits.joined id must).flushedIf _

theorem Batch.next_declared (batch : Batch) (batching : Batching) (id step : Nat) (must : Bool) :
    (batch.next batching id step must).declared = (batch.introduce id).declared :=
  (Batch.flushedIf_declared _ _).trans (Batch.flushedIf_declared _ must)

/-- A batch at its limit is full. -/
theorem Batch.next_pending_lt {most : Nat} (limited : batching.maxPending = some most)
    (positive : 0 < most) : (batch.next batching id step must).pending < most := by
  unfold Batch.next
  cases full : (batch.joined id step must).isFull batching with
  | true => exact positive
  | false =>
    change (batch.joined id step must).pending < most
    unfold Batch.isFull at full
    split at full
    · cases full
    · simpa [limited] using full

theorem flushIf_paced {waiting : List Nat} (waits : must = true → waiting ≠ []) :
    Paced limit waiting (flushIf must) := by
  cases must with
  | false => trivial
  | true => exact ⟨fun _ => waits rfl, fun _ _ => Nat.zero_le _, trivial⟩

/-- An operator keeps the pace if its batch has room for it. -/
theorem operatorSteps_paced (awaits : batch.Awaits step waiting)
    (barrier : plan.mustFlush (batch.introduce id) operator.outputs = .ok must)
    (room : ∀ most ∈ limit, batch.pending < most) (full : Bool) :
    Paced limit waiting (operatorSteps batch step operator id must full) := by
  have few : ∀ most ∈ limit, waiting.length ≤ most := by
    intro most limited
    rw [awaits.length_eq]
    exact Nat.le_of_lt (room most limited)
  have fewer : ∀ most ∈ limit, ((flushIf must).foldl Step.wait waiting).length < most := by
    intro most limited
    have inside := room most limited
    cases must with
    | false => exact awaits.length_eq ▸ inside
    | true => exact Nat.zero_lt_of_lt inside
  unfold operatorSteps
  rw [paced_append, paced_append, paced_append, paced_append, List.foldl_append,
    List.foldl_append, foldl_wait_barrier, foldl_wait_of_idle (registers_idle _),
    foldl_wait_of_idle (introduction_idle batch id)]
  refine ⟨⟨⟨⟨paced_of_idle (introduction_idle batch id) few, flushIf_paced ?_⟩, ?_⟩, ?_⟩,
    flushIf_paced ?_⟩
  · rintro rfl
    obtain ⟨first, waits, _⟩ := Plan.first_of_mustFlush barrier
    exact awaits.ne_nil ((Batch.introduce_first batch id).symm.trans waits)
  · exact paced_of_idle (registers_idle _) fun most limited => Nat.le_of_lt (fewer most limited)
  · refine ⟨nofun, fun most limited => ?_, trivial⟩
    simp only [Step.wait, List.length_append, List.length_singleton]
    exact fewer most limited
  · intro _
    simp [Step.wait]

end Operator

/-! ### The whole program -/

/-- An operator comes before the others in what is assembled. -/
theorem assembleFrom_cons_eq_ok {plan : Plan} {table : InstanceTable} {batching : Batching}
    {step : Nat} {operator : Operator} {rest : List Operator} {batch : Batch} {steps : List Step}
    (success : assembleFrom plan table batching step (operator :: rest) batch = .ok steps) :
    ∃ shared must others, table.instanceOf? step = some shared ∧
      plan.mustFlush (batch.introduce shared.id) operator.outputs = .ok must ∧
      assembleFrom plan table batching (step + 1) rest (batch.next batching shared.id step must) =
        .ok others ∧
      steps = operatorSteps batch step operator shared.id must
        ((batch.joined shared.id step must).isFull batching) ++ others := by
  unfold assembleFrom at success
  obtain ⟨⟨first, next⟩, assembled, success⟩ := bind_eq_ok.mp success
  obtain ⟨others, found, success⟩ := bind_eq_ok.mp success
  obtain rfl := pure_eq_ok.mp success
  cases assigned : table.instanceOf? step with
  | none =>
    unfold assembleOperator at assembled
    simp only [assigned] at assembled
    cases assembled
  | some shared =>
    rw [assembleOperator_eq plan batching operator batch assigned] at assembled
    obtain ⟨must, barrier, assembled⟩ := bind_eq_ok.mp assembled
    obtain ⟨rfl, rfl⟩ := Prod.mk.inj (Except.ok.inj assembled)
    exact ⟨shared, must, others, rfl, barrier, found, rfl⟩

section Rest

variable {plan : Plan} {table : InstanceTable} {batching : Batching}

theorem assembleFrom_nil_eq_ok {step : Nat} {batch : Batch} {steps : List Step}
    (success : assembleFrom plan table batching step [] batch = .ok steps) :
    steps = flushIf (0 < batch.pending) := by
  rw [← Except.ok.inj success, flushIf]
  simp only [decide_eq_true_eq]

/-- The rest of a program keeps the pace. -/
theorem assembleFrom_paced {limit : Option Nat} {operators : List Operator}
    (limited : ∀ most ∈ limit, batching.maxPending = some most ∧ 0 < most) :
    ∀ {step : Nat} {batch : Batch} {waiting : List Nat} {steps : List Step},
      batch.Awaits step waiting → (∀ most ∈ limit, batch.pending < most) →
      assembleFrom plan table batching step operators batch = .ok steps →
      Paced limit waiting steps := by
  induction operators with
  | nil =>
    intro step batch waiting steps awaits _ success
    rw [assembleFrom_nil_eq_ok success]
    refine flushIf_paced fun waits => ?_
    have pending : 0 < batch.pending := by simpa using waits
    rw [← awaits.length_eq] at pending
    exact List.ne_nil_of_length_pos pending
  | cons operator rest ih =>
    intro step batch waiting steps awaits room success
    obtain ⟨shared, must, others, _, barrier, found, rfl⟩ := assembleFrom_cons_eq_ok success
    refine paced_append.mpr ⟨operatorSteps_paced awaits barrier room _, ?_⟩
    refine ih (awaits.next batching operator shared.id must) (fun most isLimit => ?_) found
    obtain ⟨isMost, positive⟩ := limited most isLimit
    exact Batch.next_pending_lt isMost positive

/-- A program with an evaluation ends with a flush. -/
theorem assembleFrom_getLast? {operators : List Operator} :
    ∀ {step : Nat} {batch : Batch} {steps : List Step},
      operators ≠ [] ∨ 0 < batch.pending →
      assembleFrom plan table batching step operators batch = .ok steps →
      steps.getLast? = some .flush := by
  induction operators with
  | nil =>
    intro step batch steps waits success
    have pending : 0 < batch.pending := waits.resolve_left (fun unlike => unlike rfl)
    rw [assembleFrom_nil_eq_ok success]
    simp [flushIf, pending]
  | cons operator rest ih =>
    intro step batch steps _ success
    obtain ⟨shared, must, others, _, _, found, rfl⟩ := assembleFrom_cons_eq_ok success
    by_cases waits : rest ≠ [] ∨ 0 < (batch.next batching shared.id step must).pending
    · rw [List.getLast?_append, ih waits found]
      rfl
    · -- The batch is full at its last evaluation, and the program ends with that flush.
      obtain ⟨last, empty⟩ := not_or.mp waits
      obtain rfl := not_not.mp last
      rw [assembleFrom_nil_eq_ok found]
      have full : (batch.joined shared.id step must).isFull batching = true := by
        cases unfilled : (batch.joined shared.id step must).isFull batching with
        | true => rfl
        | false =>
          refine absurd ?_ empty
          rw [Batch.next, unfilled]
          exact Nat.succ_pos _
      simp [operatorSteps, full, flushIf, empty]

theorem operatorSteps_getLast? (batch : Batch) (step : Nat) (operator : Operator) (id : Nat)
    (must : Bool) :
    (operatorSteps batch step operator id must false).getLast? = some (.enqueue step step id) := by
  simp [operatorSteps, flushIf]

/-- The operator of a step stands behind what is assembled of those before it. What waits there is
what its batch holds. No flush stands there if batches are never full. -/
theorem assembleFrom_split {operators : List Operator} :
    ∀ {step index : Nat} {operator : Operator} {batch : Batch} {waiting : List Nat}
      {steps : List Step}, batch.Awaits step waiting → operators[index]? = some operator →
      assembleFrom plan table batching step operators batch = .ok steps →
      ∃ before shared must after current, table.instanceOf? (step + index) = some shared ∧
        current.Awaits (step + index) (before.foldl Step.wait waiting) ∧
        plan.mustFlush (current.introduce shared.id) operator.outputs = .ok must ∧
        ((∀ batch : Batch, batch.isFull batching = false) → before.getLast? ≠ some .flush) ∧
        steps = before ++ operatorSteps current (step + index) operator shared.id must
          ((current.joined shared.id (step + index) must).isFull batching) ++ after := by
  induction operators with
  | nil =>
    intro step index operator batch waiting steps _ present
    simp at present
  | cons first rest ih =>
    intro step index operator batch waiting steps awaits present success
    obtain ⟨shared, must, others, assigned, barrier, found, rfl⟩ := assembleFrom_cons_eq_ok success
    cases index with
    | zero =>
      obtain rfl : first = operator := by simpa using present
      exact ⟨[], shared, must, others, batch, assigned, awaits, barrier, fun _ => nofun, rfl⟩
    | succ index =>
      have awaited := awaits.next batching first shared.id must
      obtain ⟨before, other, flushed, after, current, isOther, reached, told, idle, whole⟩ :=
        ih awaited (by simpa using present) found
      rw [Nat.add_right_comm, Nat.add_assoc] at isOther reached whole
      refine ⟨operatorSteps batch step first shared.id must
        ((batch.joined shared.id step must).isFull batching) ++ before, other, flushed, after,
        current, isOther, ?_, told, fun never => ?_, ?_⟩
      · rw [List.foldl_append]
        exact reached
      · rw [never, List.getLast?_append, operatorSteps_getLast?]
        have unflushed := idle never
        cases last : before.getLast? with
        | none => exact nofun
        | some step =>
          rw [last] at unflushed
          exact unflushed
      · rw [whole]
        simp only [List.append_assoc]

end Rest

end TensorArena
