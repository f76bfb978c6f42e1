import TensorArena.Proofs.Arena.Ledger

/-!
# Refusals

With exact lifetimes no lookup of the planner fails. It stops only at a tensor that gets no slot,
because its size or the end of the slot is no size, or because the slot would end past the limit.
-/

set_option autoImplicit false

namespace TensorArena

namespace PlannerState

/-! ### Requests -/

variable {lifetimes : Lifetimes} {options : ArenaOptions} {error : PlanError} {state : PlannerState}

/-- The slot of a request that fails would end past the last address or past the limit. -/
theorem allocate_eq_error {tensor : String} {size : Nat}
    (failed : state.allocate options tensor size = .error error) :
    error = .sizeOverflow tensor ∨ ∃ limit required, options.arenaLimit = some limit ∧
      limit < required ∧ error = .arenaOverflow tensor size required limit
        (totalSize (state.held.map Holding.size)) (sortNames (state.held.map Holding.name)) := by
  unfold allocate at failed
  split at failed
  · cases failed
  · dsimp only at failed
    split at failed
    · exact .inl (Except.error.inj failed).symm
    · rename_i required _
      split at failed
      · cases failed
      · rename_i limit limited
        split at failed
        · rename_i past
          exact .inr ⟨limit, required, limited, past, (Except.error.inj failed).symm⟩
        · cases failed

theorem place_eq_error {position : Nat} {tensor : Tensor} {lifetime : Lifetime}
    (found : lifetimes.get? tensor.name = some lifetime)
    (failed : state.place lifetimes options position tensor = .error error) :
    lifetime.role ≠ .constant ∧ (error = .sizeOverflow tensor.name ∨
      ∃ size limit required, tensor.byteLength?.bind options.alignUp? = some size ∧
        options.arenaLimit = some limit ∧ limit < required ∧
        state.allocate options tensor.name size = .error error ∧
        error = .arenaOverflow tensor.name size required limit
          (totalSize (state.held.map Holding.size))
          (sortNames (state.held.map Holding.name))) := by
  by_cases constant : lifetime.role = .constant
  · rw [place_constant found constant] at failed
    cases failed
  · refine ⟨constant, ?_⟩
    rw [place_slot found constant] at failed
    split at failed
    · exact .inl (Except.error.inj failed).symm
    · rename_i size sized
      rcases bind_eq_error.mp failed with failed | ⟨_, _, failed⟩
      · exact (allocate_eq_error failed).imp_right fun ⟨limit, required, limited, past, same⟩ =>
          ⟨size, limit, required, sized, limited, past, failed, same⟩
      · cases failed

/-! ### Ends of walks -/

/-- At the end of a walk every tensor has been placed. -/
theorem Consistent.placed {graph : Graph} {lifetimes : Lifetimes}
    {options : ArenaOptions} {now : Nat} {state : PlannerState} (exact : lifetimes.Exact graph)
    (consistent : state.Consistent graph lifetimes options now (reached graph.operators.length)) :
    ∀ entry ∈ state.entries, entry ≠ none := by
  rintro entry member rfl
  obtain ⟨position, waiting⟩ := List.mem_iff_getElem?.mp member
  have bound := (List.getElem?_eq_some_iff.mp waiting).1
  rw [consistent.length] at bound
  obtain ⟨lifetime, declares⟩ := exact.declares_of_tensor (List.getElem?_eq_getElem bound)
  have tracks := consistent.tracks position _ lifetime declares
  rw [reached, if_pos (declares.pair exact).2.start_le_length] at tracks
  obtain ⟨⟨entry, held, _⟩, _⟩ := tracks
  cases waiting.symm.trans held

end PlannerState

namespace Graph

variable {graph : Graph} {lifetimes : Lifetimes} {options : ArenaOptions} {error : PlanError}

theorem exists_collectEntries {tensors : List Tensor} {entries : List (Option PlanEntry)}
    (placed : ∀ entry ∈ entries, entry ≠ none) :
    ∃ collected, collectEntries tensors entries = .ok collected := by
  induction tensors generalizing entries with
  | nil => exact ⟨[], rfl⟩
  | cons tensor tensors ih =>
    cases entries with
    | nil => exact ⟨[], rfl⟩
    | cons entry entries =>
      cases entry with
      | none => exact absurd rfl (placed none List.mem_cons_self)
      | some entry =>
        obtain ⟨others, rest⟩ := ih fun other member => placed other (List.mem_cons_of_mem _ member)
        exact ⟨entry :: others, by rw [collectEntries, rest]; rfl⟩

/-- Planning with exact lifetimes fails only where a tensor cannot be placed. -/
theorem exists_place_of_plan_eq_error (exact : lifetimes.Exact graph)
    (failed : graph.plan lifetimes options = .error error) :
    ∃ state position tensor, graph.Makes lifetimes options state (.place position tensor) ∧
      state.place lifetimes options position tensor = .error error := by
  obtain ⟨initial, started⟩ : ∃ initial, graph.initialState lifetimes = .ok initial :=
    ⟨_, initialState_eq exact⟩
  rw [plan_eq_planByMoves exact, planByMoves, started, ok_bind] at failed
  rcases bind_eq_error.mp failed with walking | ⟨final, walked, failed⟩
  · obtain ⟨done, move, rest, state, whole, reached, failed⟩ := exists_of_foldlM_eq_error walking
    cases move with
    | place position tensor =>
      exact ⟨state, position, tensor, ⟨initial, done, rest, started, whole, reached⟩, failed⟩
    | read step position name => cases failed
    | drop step position name => cases failed
  · have reached := PlannerState.Consistent.of_moves exact started walked
    obtain ⟨entries, collected⟩ := exists_collectEntries (reached.placed exact)
    rw [conclude, collected] at failed
    cases failed

/-- Constants need no slots, so nothing keeps them from being placed. -/
theorem exists_plan_of_constants (exact : lifetimes.Exact graph)
    (constant : ∀ tensor ∈ graph.tensors, graph.role? tensor.name = some .constant)
    (options : ArenaOptions) : ∃ plan, graph.plan lifetimes options = .ok plan := by
  cases outcome : graph.plan lifetimes options with
  | ok plan => exact ⟨plan, rfl⟩
  | error error =>
    have ⟨state, position, tensor, makes, failed⟩ := exists_place_of_plan_eq_error exact outcome
    have ⟨lifetime, stage, turn⟩ := makes.ready exact
    have ⟨named, known⟩ := turn.declares.pair exact
    have held := (PlannerState.place_eq_error (turn.declares.get? exact) failed).1
    have role := known.role
    rw [named, constant tensor (List.mem_of_getElem? turn.declares.1)] at role
    exact absurd (Option.some.inj role).symm held

end Graph

end TensorArena
