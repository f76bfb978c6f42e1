import Mathlib.Data.List.Forall2
import TensorArena.Proofs.Lifetime.Walk

/-!
# Exact lifetimes

The lifetimes of a graph say exactly which steps write and read each tensor. A tensor that is no
output of the graph is kept until its last reader has run, or its writer if nobody reads it.
-/

set_option autoImplicit false

namespace TensorArena

/-- A lifetime says what the operators of the graph do with its tensor. -/
structure Lifetime.Exact (graph : Graph) (lifetime : Lifetime) : Prop where
  role : graph.role? lifetime.name = some lifetime.role
  producer : ∀ step, lifetime.producer = some step ↔ graph.Writes step lifetime.name
  intermediate : lifetime.role = .intermediate ↔ lifetime.producer.isSome
  consumers : ∀ step, step ∈ lifetime.consumers ↔ graph.Reads step lifetime.name
  ascending : lifetime.consumers.Pairwise (· < ·)
  before : ∀ written step, lifetime.producer = some written → step ∈ lifetime.consumers →
    written < step
  isOutput : lifetime.isOutput = graph.isOutput lifetime.name
  used : lifetime.role ≠ .intermediate → lifetime.consumers ≠ [] ∨ lifetime.isOutput
  start : lifetime.interval.start = (lifetime.producer.map (· + 1)).getD 0
  stop : lifetime.interval.stop =
    if lifetime.isOutput then graph.operators.length + 1
    else (lifetime.consumers.getLast?.map (· + 1)).getD lifetime.interval.start
  refcount : lifetime.refcount = lifetime.consumers.length + if lifetime.isOutput then 1 else 0

/-- There is one exact lifetime for each tensor, and every operand of an operator has one. -/
structure Lifetimes.Exact (graph : Graph) (lifetimes : Lifetimes) : Prop where
  distinct : (graph.tensors.map Tensor.name).Nodup
  tensors : List.Forall₂ (fun tensor lifetime =>
    lifetime.name = tensor.name ∧ lifetime.Exact graph) graph.tensors lifetimes.tensors
  reads : ∀ step name, graph.Reads step name → ∃ role, graph.role? name = some role
  writes : ∀ step name, graph.Writes step name → graph.role? name = some .intermediate
  outputs : ∀ operator ∈ graph.operators, operator.outputs.Nodup
  steps : lifetimes.steps = graph.operators.length

namespace Graph

theorem role?_name {graph : Graph} (distinct : (graph.tensors.map Tensor.name).Nodup)
    {tensor : Tensor} (member : tensor ∈ graph.tensors) :
    graph.role? tensor.name = some ((graph.role? tensor.name).getD .intermediate) := by
  simp [role?, tensor?_name distinct member]

/-- What the two walks and the checks of one tensor establish. -/
theorem lifetime_eq_ok {graph : Graph} {producers : Producers} {tensor : Tensor}
    {lifetime : Lifetime} (distinct : (graph.tensors.map Tensor.name).Nodup)
    (member : tensor ∈ graph.tensors)
    (written : ∀ name step, producers.step? name = some step ↔ graph.Writes step name)
    (roles : ∀ step name, graph.Writes step name → graph.role? name = some .intermediate)
    (read : ∀ step name, graph.Reads step name → graph.checkRead producers step name = .ok ())
    (success : graph.lifetime producers tensor = .ok lifetime) :
    lifetime.name = tensor.name ∧ lifetime.Exact graph := by
  unfold Graph.lifetime at success
  dsimp only at success
  split at success
  · cases success
  · rename_i produced
    split at success
    · cases success
    · rename_i used
      obtain rfl := (Except.ok.inj success).symm
      have role := role?_name distinct member
      refine ⟨rfl, ?_⟩
      constructor
      · exact role
      · exact written tensor.name
      · constructor
        · intro intermediate
          dsimp only at intermediate ⊢
          simp only [intermediate, decide_true, Bool.true_and] at produced
          exact (Option.isSome_iff_ne_none.mpr fun absent => produced (by simp [absent]))
        · intro present
          obtain ⟨step, found⟩ := Option.isSome_iff_exists.mp present
          have intermediate := roles step tensor.name ((written _ _).mp found)
          simp [intermediate]
      · intro step
        exact mem_consumersFrom.trans occursFrom_inputs
      · exact consumersFrom_ascending _ _ _
      · intro first step found consumes
        have reads := occursFrom_inputs.mp (mem_consumersFrom.mp consumes)
        obtain ⟨other, isRole, before⟩ := checkRead_eq_ok (read step _ reads)
        have intermediate := roles first _ ((written _ _).mp found)
        obtain ⟨again, same, earlier⟩ := before (Option.some.inj (isRole.symm.trans intermediate))
        obtain rfl := Option.some.inj (found.symm.trans same)
        exact earlier
      · rfl
      · intro unlike
        dsimp only at unlike ⊢
        by_cases output : graph.isOutput tensor.name = true
        · exact .inr output
        · refine .inl fun unread => used ?_
          simp [unlike, output, unread]
      · rfl
      · rfl
      · rfl

theorem lifetimes_eq_ok {graph : Graph} {lifetimes : Lifetimes}
    (success : graph.lifetimes = .ok lifetimes) : lifetimes.Exact graph := by
  unfold Graph.lifetimes at success
  obtain ⟨names, success⟩ := check_bind_eq_ok.mp success
  obtain ⟨producers, walked, success⟩ := bind_eq_ok.mp success
  obtain ⟨readable, success⟩ := check_bind_eq_ok.mp success
  obtain ⟨tensors, found, success⟩ := bind_eq_ok.mp success
  obtain rfl := pure_eq_ok.mp success
  have distinct := (checkNames_eq_ok (mapError_eq_ok.mp names)).1
  have ⟨_, _, roles⟩ := producersFrom_eq_ok walked (by simp)
  have written := step?_eq_some_iff_writes walked
  have intermediate : ∀ step name, graph.Writes step name →
      graph.role? name = some .intermediate := by
    rintro step name ⟨operator, present, member⟩
    exact (roles operator (List.mem_of_getElem? present)).2 name member
  have read : ∀ step name, graph.Reads step name →
      graph.checkRead producers step name = .ok () := by
    rintro step name ⟨operator, present, member⟩
    simpa using checkReadsFrom_eq_ok readable step operator present name member
  refine ⟨distinct, ?_, ?_, intermediate, fun operator member => (roles operator member).1, rfl⟩
  · have results := forall₂_of_mapM_eq_ok found
    rw [List.forall₂_iff_get] at results ⊢
    refine ⟨results.1, fun index left right => ?_⟩
    exact lifetime_eq_ok distinct (List.get_mem _ _) written intermediate read
      (results.2 index left right)
  · intro step name reads
    obtain ⟨role, found, _⟩ := checkRead_eq_ok (read step name reads)
    exact ⟨role, found⟩

end Graph

end TensorArena
