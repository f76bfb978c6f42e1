import TensorArena.Graph.Validation
import TensorArena.Proofs.Results

/-!
# The boundary of a valid graph

Validation lets each output pass once, and only if there is such a tensor; an input moreover must
not have data. Operators may name any tensors that there are.
-/

set_option autoImplicit false

namespace TensorArena.Graph

theorem checkOutputs_eq_ok {graph : Graph} {seen names : List String}
    (success : graph.checkOutputs seen names = .ok ()) :
    names.Nodup ∧ ∀ name ∈ names, (graph.tensor? name).isSome ∧ name ∉ seen := by
  induction names generalizing seen with
  | nil => simp
  | cons name rest ih =>
    unfold checkOutputs at success
    split at success
    · cases success
    · rename_i declared
      split at success
      · cases success
      · rename_i fresh
        obtain ⟨distinct, others⟩ := ih success
        rw [List.nodup_cons]
        refine ⟨⟨fun repeated => (others name repeated).2 (List.mem_cons_self ..), distinct⟩, ?_⟩
        intro other member
        rcases List.mem_cons.mp member with rfl | member
        · exact ⟨by simpa [Option.isSome_iff_ne_none] using declared, by simpa using fresh⟩
        · obtain ⟨known, unseen⟩ := others other member
          exact ⟨known, fun listed => unseen (List.mem_cons_of_mem _ listed)⟩

theorem checkOutputs_of_nodup {graph : Graph} {seen names : List String} (distinct : names.Nodup)
    (fresh : ∀ name ∈ names, name ∉ seen) (declared : ∀ name ∈ names, (graph.tensor? name).isSome) :
    graph.checkOutputs seen names = .ok () := by
  induction names generalizing seen with
  | nil => rfl
  | cons name rest ih =>
    have ⟨new, others⟩ := List.nodup_cons.mp distinct
    rw [List.forall_mem_cons] at declared
    have known : ¬ (graph.tensor? name).isNone = true := by
      rw [Option.isNone_iff_eq_none]
      exact Option.isSome_iff_ne_none.mp declared.1
    rw [checkOutputs, if_neg known, if_neg (by simpa using fresh name (List.mem_cons_self ..))]
    apply ih others _ declared.2
    intro other member repeated
    rcases List.mem_cons.mp repeated with same | old
    · exact new (same ▸ member)
    · exact fresh other (List.mem_cons_of_mem _ member) old

theorem checkInputs_of_nodup {graph : Graph} {seen names : List String} (distinct : names.Nodup)
    (fresh : ∀ name ∈ names, name ∉ seen)
    (free : ∀ name ∈ names, ∃ tensor, graph.tensor? name = some tensor ∧ tensor.data = none) :
    graph.checkInputs seen names = .ok () := by
  induction names generalizing seen with
  | nil => rfl
  | cons name rest ih =>
    have ⟨new, others⟩ := List.nodup_cons.mp distinct
    rw [List.forall_mem_cons] at free
    obtain ⟨tensor, found, empty⟩ := free.1
    have plain : ¬ tensor.isConstant = true := by simp [Tensor.isConstant, empty]
    rw [checkInputs, found]
    dsimp only
    rw [if_neg plain, if_neg (by simpa using fresh name (List.mem_cons_self ..))]
    apply ih others _ free.2
    intro other member repeated
    rcases List.mem_cons.mp repeated with same | old
    · exact new (same ▸ member)
    · exact fresh other (List.mem_cons_of_mem _ member) old

theorem checkReferences_of_forall {graph : Graph} {index : Nat} {operators : List Operator}
    (declared : ∀ operator ∈ operators, ∀ name ∈ operator.inputs ++ operator.outputs,
      (graph.tensor? name).isSome) : graph.checkReferences index operators = .ok () := by
  induction operators generalizing index with
  | nil => rfl
  | cons operator rest ih =>
    rw [List.forall_mem_cons] at declared
    have none : ((operator.inputs ++ operator.outputs).find? fun name =>
        (graph.tensor? name).isNone) = none := by
      rw [List.find?_eq_none]
      intro name member
      rw [Option.isNone_iff_eq_none]
      exact Option.isSome_iff_ne_none.mp (declared.1 name member)
    rw [checkReferences, none]
    exact ih declared.2

theorem validate_eq_ok {graph : Graph} (success : graph.validate = .ok ()) :
    graph.outputs.Nodup ∧ ∀ name ∈ graph.outputs, (graph.tensor? name).isSome := by
  unfold validate at success
  obtain ⟨_, success⟩ := check_bind_eq_ok.mp success
  obtain ⟨_, success⟩ := check_bind_eq_ok.mp success
  obtain ⟨_, success⟩ := check_bind_eq_ok.mp success
  obtain ⟨outputs, _⟩ := check_bind_eq_ok.mp success
  obtain ⟨distinct, declared⟩ := checkOutputs_eq_ok outputs
  exact ⟨distinct, fun name member => (declared name member).1⟩

end TensorArena.Graph
