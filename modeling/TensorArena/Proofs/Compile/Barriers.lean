import TensorArena.Proofs.Compile.Completeness
import TensorArena.Proofs.Program.Sequence

/-!
# Barriers

A lazy program flushes before an operator whose outputs take slots from gaps that a waiting step
last contributed to. The slot that was given back then borders on the slots of the outputs, with
nothing owned between them; it need not share an address with them.
-/

set_option autoImplicit false

namespace TensorArena

/-- The step of the execution that a step of the program evaluates. -/
def Step.evaluated? : Step → Option Nat
  | .enqueue step _ _ => some step
  | _ => none

theorem Graph.Sequences.evaluated {graph : Graph} {table : InstanceTable} {batching : Batching}
    {steps : List Step} (sequences : graph.Sequences table batching steps) :
    steps.filterMap Step.evaluated? = graph.executionOrder := by
  have enqueues : steps.filterMap Step.evaluated? =
      (steps.filter Step.isEnqueue).filterMap Step.evaluated? := by
    rw [List.filterMap_filter]
    apply List.filterMap_congr
    intro step _
    cases step <;> rfl
  rw [enqueues]
  have evaluates := sequences.evaluates
  generalize graph.executionOrder = order, steps.filter Step.isEnqueue = found at evaluates
  induction evaluates with
  | nil => rfl
  | cons evaluation _ ih =>
    obtain ⟨shared, _, rfl⟩ := evaluation
    rw [List.filterMap_cons, ih]
    rfl

/-- An evaluation stands in one place. -/
theorem Graph.Sequences.split_unique {graph : Graph} {table : InstanceTable} {batching : Batching}
    {steps before after otherBefore otherAfter : List Step} {step operator id other otherId : Nat}
    (sequences : graph.Sequences table batching steps)
    (whole : steps = before ++ .enqueue step operator id :: after)
    (again : steps = otherBefore ++ .enqueue step other otherId :: otherAfter) :
    before = otherBefore := by
  have alone : ∀ {before after : List Step} {operator id : Nat},
      steps = before ++ .enqueue step operator id :: after →
      before = steps.takeWhile fun other => other.evaluated? ≠ some step := by
    intro before after operator id whole
    have distinct : (steps.filterMap Step.evaluated?).Nodup := by
      rw [sequences.evaluated]
      exact List.nodup_range
    have absent : ∀ other ∈ before, other.evaluated? ≠ some step := by
      intro other member same
      rw [whole, List.filterMap_append] at distinct
      refine (List.nodup_append.mp distinct).2.2 step ?_ step ?_ rfl
      · exact List.mem_filterMap.mpr ⟨other, member, same⟩
      · exact List.mem_filterMap.mpr ⟨_, List.mem_cons_self .., rfl⟩
    rw [whole, List.takeWhile_append_of_pos (by simpa using absent),
      List.takeWhile_cons_of_neg (by simp [Step.evaluated?]), List.append_nil]
  rw [alone whole, alone again]

/-- In a lazy program without a limit, what stands right before the registrations of an operator is
a flush only because its outputs reuse what a waiting step gives back. -/
theorem Graph.Planned.barrier {graph : Graph} {lifetimes : Lifetimes} {options : ArenaOptions}
    {plan : Plan} {catalog : Catalog} {table : InstanceTable} {steps before after : List Step}
    {step id : Nat} {operator : Operator} (planned : graph.Planned lifetimes options plan)
    (shared : graph.shareInstances catalog = .ok table)
    (assembled : graph.assemble plan table ⟨.lazy, none⟩ = .ok steps)
    (present : graph.operators[step]? = some operator)
    (flushes : steps = before ++ .flush ::
      (operator.outputs.map Step.register ++ .enqueue step step id :: after)) :
    ∃ batch : Batch, batch.Awaits step (waitingAfter before) ∧
      plan.mustFlush batch operator.outputs = .ok true := by
  have sequences := planned.sequences shared assembled
  obtain ⟨body, found, rfl⟩ := Graph.assemble_eq_ok planned assembled
  obtain ⟨lead, own, must, rest, current, _, awaits, told, idle, rfl⟩ :=
    assembleFrom_split .initial present found
  rw [Nat.zero_add] at *
  have quiet := registers_idle graph.entryNames
  generalize graph.entryNames.map Step.register = entry at *
  have place : before ++ [.flush] =
      entry ++ lead ++ current.introduction own.id ++ flushIf must := by
    have behind : entry ++ (lead ++ operatorSteps current step operator own.id must
        ((current.joined own.id step must).isFull ⟨.lazy, none⟩) ++ rest) =
        (before ++ [.flush] ++ operator.outputs.map Step.register) ++
          .enqueue step step id :: after := by
      rw [flushes]
      simp
    have expanded : entry ++ (lead ++ operatorSteps current step operator own.id must
        ((current.joined own.id step must).isFull ⟨.lazy, none⟩) ++ rest) =
        (entry ++ lead ++ current.introduction own.id ++ flushIf must ++
          operator.outputs.map Step.register) ++ .enqueue step step own.id ::
            (flushIf ((current.joined own.id step must).isFull ⟨.lazy, none⟩) ++ rest) := by
      simp [operatorSteps]
    exact List.append_cancel_right (sequences.split_unique behind expanded)
  cases must with
  | false =>
    -- The flush would be the last of the steps before the registrations, and none of them is one.
    have last : (entry ++ lead ++ current.introduction own.id ++ flushIf false).getLast? =
        some .flush := by
      rw [← place]
      simp
    simp only [flushIf, Bool.false_eq_true, ↓reduceIte, List.append_nil,
      List.getLast?_append, Option.or_eq_some_iff] at last
    rcases last with introduced | ⟨_, led | ⟨_, entered⟩⟩
    · exact absurd rfl (introduction_idle current own.id _ (List.mem_of_getLast? introduced)).1
    · exact absurd led (idle fun _ => rfl)
    · exact absurd rfl (quiet _ (List.mem_of_getLast? entered)).1
  | true =>
    have before_eq : before = entry ++ lead ++ current.introduction own.id :=
      List.append_cancel_right place
    refine ⟨current.introduce own.id, ?_, told⟩
    rw [before_eq, waitingAfter, List.foldl_append, List.foldl_append, foldl_wait_of_idle quiet,
      foldl_wait_of_idle (introduction_idle current own.id)]
    exact awaits.introduce own.id

namespace Graph

end Graph

end TensorArena
