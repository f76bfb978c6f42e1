import TensorArena.Catalog.Standard
import TensorArena.Proofs.Arena.Ownership
import TensorArena.Proofs.Graph.Boundary
import TensorArena.Proofs.Program.Batches
import TensorArena.Proofs.Program.Completion

/-!
# Emission

The batching decides where the flushes of a program stand and nothing else. All programs of a plan
register and enqueue the same things in the same order, and executing them runs and releases the
same things in the same order.
-/

set_option autoImplicit false

namespace TensorArena

/-- Apart from its flushes, what an operator adds depends on the instances introduced before. -/
theorem operatorSteps_unflushed (batch : Batch) (step : Nat) (operator : Operator) (id : Nat)
    (must full : Bool) :
    (operatorSteps batch step operator id must full).filter (· ≠ .flush) =
      batch.introduction id ++ operator.outputs.map Step.register ++ [.enqueue step step id] := by
  have introduction : (batch.introduction id).filter (· ≠ .flush) = batch.introduction id := by
    unfold Batch.introduction
    split <;> rfl
  have registers : (operator.outputs.map Step.register).filter (· ≠ .flush) =
      operator.outputs.map Step.register := by
    rw [List.filter_eq_self]
    intro step member
    obtain ⟨name, _, rfl⟩ := List.mem_map.mp member
    rfl
  have flushes : ∀ flush : Bool, (flushIf flush).filter (· ≠ .flush) = [] := by
    intro flush
    cases flush <;> rfl
  have enqueues : [Step.enqueue step step id].filter (· ≠ .flush) = [.enqueue step step id] := rfl
  simp only [operatorSteps, List.filter_append, introduction, registers, flushes, enqueues,
    List.append_nil]

theorem assembleFrom_unflushed {plan : Plan} {table : InstanceTable} {left right : Batching}
    {operators : List Operator} :
    ∀ {step : Nat} {first second : Batch} {leftSteps rightSteps : List Step},
      first.declared = second.declared →
      assembleFrom plan table left step operators first = .ok leftSteps →
      assembleFrom plan table right step operators second = .ok rightSteps →
      leftSteps.filter (· ≠ .flush) = rightSteps.filter (· ≠ .flush) := by
  induction operators with
  | nil =>
    intro step first second leftSteps rightSteps _ isLeft isRight
    have unflushed : ∀ flush, (flushIf flush).filter (· ≠ .flush) = [] := by
      intro flush
      cases flush <;> rfl
    rw [assembleFrom_nil_eq_ok isLeft, assembleFrom_nil_eq_ok isRight, unflushed, unflushed]
  | cons operator rest ih =>
    intro step first second leftSteps rightSteps same isLeft isRight
    obtain ⟨shared, _, leftTail, assigned, _, leftRest, rfl⟩ := assembleFrom_cons_eq_ok isLeft
    obtain ⟨other, _, rightTail, again, _, rightRest, rfl⟩ := assembleFrom_cons_eq_ok isRight
    obtain rfl := Option.some.inj (assigned.symm.trans again)
    have introduction : first.introduction shared.id = second.introduction shared.id := by
      unfold Batch.introduction
      rw [same]
    have declared : (first.introduce shared.id).declared =
        (second.introduce shared.id).declared := by
      unfold Batch.introduce
      rw [same]
      split
      · exact same
      · rfl
    rw [List.filter_append, List.filter_append, operatorSteps_unflushed, operatorSteps_unflushed,
      introduction, ih (by rw [Batch.next_declared, Batch.next_declared, declared]) leftRest
        rightRest]

/-- Programs for two batchings are the same apart from their flushes. Both replay, and their logs
show the same executions and releases in the same order. -/
theorem Graph.batching_irrelevant (graph : Graph) (catalog : Catalog) (options : ArenaOptions)
    (lifetimes : Lifetimes) (plan : Plan) (table : InstanceTable)
    (valid : graph.validate = .ok ()) (analysed : graph.lifetimes = .ok lifetimes)
    (planned : graph.plan lifetimes options = .ok plan)
    (shared : graph.shareInstances catalog = .ok table) (left right : Batching) :
    ∃ leftSteps rightSteps leftContext rightContext,
      graph.assemble plan table left = .ok leftSteps ∧
      graph.assemble plan table right = .ok rightSteps ∧
      leftSteps.filter (· ≠ .flush) = rightSteps.filter (· ≠ .flush) ∧
      graph.replay plan table leftSteps = .ok leftContext ∧
      graph.replay plan table rightSteps = .ok rightContext ∧
      leftContext.events.filter Event.isEffect = rightContext.events.filter Event.isEffect := by
  obtain ⟨distinct, declared⟩ := validate_eq_ok valid
  have sound : Launch.Sound options catalog
      ⟨graph, lifetimes, plan, table, fun _ symbol => .idle Unit symbol, ()⟩ :=
    ⟨.of_eq_ok analysed planned, shareInstances_eq_ok shared, fun _ _ _ _ _ => rfl⟩
  obtain ⟨leftSteps, isLeft, _, leftContext, leftRan, _, _, _, _, leftEffects⟩ :=
    Launch.assemble_executes sound distinct declared left
  obtain ⟨rightSteps, isRight, _, rightContext, rightRan, _, _, _, _, rightEffects⟩ :=
    Launch.assemble_executes sound distinct declared right
  refine ⟨leftSteps, rightSteps, leftContext, rightContext, isLeft, isRight, ?_, leftRan, rightRan,
    leftEffects.trans rightEffects.symm⟩
  unfold Graph.assemble at isLeft isRight
  obtain ⟨leftRest, leftTail, isLeft⟩ := bind_eq_ok.mp isLeft
  obtain ⟨rightRest, rightTail, isRight⟩ := bind_eq_ok.mp isRight
  rw [← pure_eq_ok.mp isLeft, ← pure_eq_ok.mp isRight, List.filter_append, List.filter_append,
    assembleFrom_unflushed rfl leftTail rightTail]

theorem Graph.relay_batching_irrelevant :
    ∃ lifetimes plan table, relay.validate = .ok () ∧ relay.lifetimes = .ok lifetimes ∧
      relay.plan lifetimes {} = .ok plan ∧ relay.shareInstances .standard = .ok table ∧
      ∃ leftSteps rightSteps leftContext rightContext,
        relay.assemble plan table { maxPending := some 2 } = .ok leftSteps ∧
        relay.assemble plan table { emission := .eager } = .ok rightSteps ∧
        leftSteps.filter (· ≠ .flush) = rightSteps.filter (· ≠ .flush) ∧
        relay.replay plan table leftSteps = .ok leftContext ∧
        relay.replay plan table rightSteps = .ok rightContext ∧
        leftContext.events.filter Event.isEffect = rightContext.events.filter Event.isEffect :=
  ⟨_, _, _, rfl, rfl, rfl, rfl, batching_irrelevant relay .standard {} _ _ _ rfl rfl rfl rfl
    { maxPending := some 2 } { emission := .eager }⟩

end TensorArena
