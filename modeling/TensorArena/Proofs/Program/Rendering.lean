import TensorArena.Program.Source
import TensorArena.Proofs.Program.Assembly

/-!
# Rendering

The source of a planned graph can be written for all steps that refer to what there is: every
instance has a handler, every entry a tensor, and every constant an array.
-/

set_option autoImplicit false

namespace TensorArena

theorem arraySymbolsFrom_names (used : List String) (entries : List PlanEntry) :
    (arraySymbolsFrom used entries).map Prod.fst =
      (entries.filter fun entry => entry.storage = .rom).map PlanEntry.name := by
  induction entries generalizing used with
  | nil => rfl
  | cons entry rest ih =>
    unfold arraySymbolsFrom
    by_cases constant : entry.storage = .rom
    · simp [constant, ih]
    · simp [constant, ih]

namespace SourceUnit

variable {unit : SourceUnit} {lifetimes : Lifetimes} {options : ArenaOptions}

theorem findTensor_eq_ok (planned : unit.graph.Planned lifetimes options unit.plan)
    {entry : PlanEntry} (member : entry ∈ unit.plan.entries) :
    ∃ tensor, unit.findTensor entry.name = .ok tensor := by
  have listed : entry.name ∈ unit.graph.tensors.map Tensor.name := by
    rw [← planned.fits.names planned.exact]
    exact List.mem_map_of_mem member
  obtain ⟨tensor, isTensor, same⟩ := List.mem_map.mp listed
  refine ⟨tensor, ?_⟩
  unfold findTensor Graph.tensor?
  rw [(find?_named_iff Tensor.name planned.exact.distinct).mpr ⟨isTensor, same⟩]

/-- An entry in read-only storage has an array. -/
theorem arraySymbol?_isSome {entry : PlanEntry} (member : entry ∈ unit.plan.entries)
    (constant : entry.storage = .rom) : (unit.arraySymbol? entry.name).isSome := by
  have listed : entry.name ∈ unit.arraySymbols.map Prod.fst := by
    rw [arraySymbols, arraySymbolsFrom_names]
    exact List.mem_map_of_mem (List.mem_filter.mpr ⟨member, by simpa using constant⟩)
  obtain ⟨pair, inside, same⟩ := List.mem_map.mp listed
  rw [arraySymbol?, List.lookup_isSome_iff]
  exact ⟨pair, List.mem_reverse.mpr inside, by simpa using same.symm⟩

theorem registration_eq_ok (planned : unit.graph.Planned lifetimes options unit.plan)
    {name : String} {entry : PlanEntry} (found : unit.plan.entry? name = some entry) :
    ∃ text, unit.registration name = .ok text := by
  obtain ⟨member, rfl⟩ := (planned.fits.entry?_eq_some_iff planned.exact).mp found
  obtain ⟨tensor, isTensor⟩ := findTensor_eq_ok planned member
  obtain ⟨term, isTerm⟩ : ∃ term, unit.storageTerm entry entry.name = .ok term := by
    unfold storageTerm
    cases storage : entry.storage with
    | arena offset size => exact ⟨_, rfl⟩
    | rom =>
      obtain ⟨symbol, isSymbol⟩ :=
        Option.isSome_iff_exists.mp (arraySymbol?_isSome member storage)
      rw [isSymbol]
      exact ⟨_, rfl⟩
  unfold registration
  rw [isTensor, ok_bind, found]
  dsimp only
  rw [isTerm, ok_bind]
  exact ⟨_, rfl⟩

theorem findInstance_eq_ok {steps id : Nat} {shared : Instance}
    (serves : unit.table.Serves unit.catalog steps) (found : unit.table.get? id = some shared) :
    unit.findInstance id = .ok shared ∧ ∃ handler, unit.findHandler shared = .ok handler := by
  obtain ⟨handler, isHandler⟩ := Option.isSome_iff_exists.mp (serves.of_get? found).2
  refine ⟨?_, handler, ?_⟩
  · rw [findInstance, found]
  · rw [findHandler, isHandler]

theorem renderStep_eq_ok (planned : unit.graph.Planned lifetimes options unit.plan)
    (serves : unit.table.Serves unit.catalog unit.graph.operators.length) {step : Step}
    (refers : step.Refers unit.graph unit.plan unit.table) :
    ∃ fragment, unit.renderStep step = .ok fragment := by
  cases step with
  | declare id =>
    obtain ⟨shared, found⟩ := refers
    obtain ⟨isInstance, handler, isHandler⟩ := findInstance_eq_ok serves found
    rw [renderStep, isInstance, ok_bind, isHandler, ok_bind]
    exact ⟨_, rfl⟩
  | construct id =>
    obtain ⟨shared, found⟩ := refers
    obtain ⟨isInstance, handler, isHandler⟩ := findInstance_eq_ok serves found
    rw [renderStep, isInstance, ok_bind, isHandler, ok_bind]
    exact ⟨_, rfl⟩
  | register tensor =>
    obtain ⟨entry, found⟩ := refers
    obtain ⟨text, written⟩ := registration_eq_ok planned found
    rw [renderStep, written, ok_bind]
    exact ⟨_, rfl⟩
  | enqueue step index id =>
    obtain ⟨inside, shared, found⟩ := refers
    obtain ⟨isInstance, handler, isHandler⟩ := findInstance_eq_ok serves found
    rw [renderStep, List.getElem?_eq_getElem inside]
    dsimp only
    rw [isInstance, ok_bind, isHandler, ok_bind]
    exact ⟨_, rfl⟩
  | flush => exact ⟨_, rfl⟩

theorem arrayDefinitions_eq_ok (planned : unit.graph.Planned lifetimes options unit.plan)
    {entries : List PlanEntry} (inside : ∀ entry ∈ entries, entry ∈ unit.plan.entries) :
    ∃ text, unit.arrayDefinitions entries = .ok text := by
  induction entries with
  | nil => exact ⟨"", rfl⟩
  | cons entry rest ih =>
    obtain ⟨others, written⟩ := ih fun other member => inside other (by simp [member])
    obtain ⟨tensor, isTensor⟩ := findTensor_eq_ok planned (inside entry (by simp))
    unfold arrayDefinitions
    cases unit.arraySymbol? entry.name with
    | none => exact ⟨others, written⟩
    | some symbol =>
      dsimp only
      rw [isTensor, ok_bind, written, ok_bind]
      exact ⟨_, rfl⟩

theorem render_eq_ok (planned : unit.graph.Planned lifetimes options unit.plan)
    (serves : unit.table.Serves unit.catalog unit.graph.operators.length) {steps : List Step}
    (refers : ∀ step ∈ steps, step.Refers unit.graph unit.plan unit.table) :
    ∃ source, unit.render steps = .ok source := by
  obtain ⟨fragments, rendered⟩ := mapM_eq_ok_of_forall
    fun step member => renderStep_eq_ok planned serves (refers step member)
  obtain ⟨constants, defined⟩ : ∃ text, unit.arrayDefinitions unit.plan.entries = .ok text :=
    arrayDefinitions_eq_ok planned fun _ member => member
  unfold render
  rw [rendered, ok_bind, defined, ok_bind]
  exact ⟨_, rfl⟩

end SourceUnit

end TensorArena
