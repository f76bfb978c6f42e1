import TensorArena.Program.Instance
import TensorArena.Proofs.Results

/-!
# The table of shared instances

Every step of the execution is assigned an instance, instances are numbered by their places, and
the catalog has a handler for each.
-/

set_option autoImplicit false

namespace TensorArena

/-- The table assigns instances to the first `steps` steps. -/
structure InstanceTable.Serves (catalog : Catalog) (steps : Nat) (table : InstanceTable) :
    Prop where
  ids : ∀ (id : Nat) (shared : Instance), table.instances[id]? = some shared → shared.id = id
  handled : ∀ shared ∈ table.instances, (catalog.get? shared.key.opType).isSome
  length : table.assigned.length = steps
  assigned : ∀ id ∈ table.assigned, id < table.instances.length

theorem normalizeParams_eq_ok {position : Nat} {params normals : List Param}
    (success : normalizeParams position params = .ok normals) :
    Param.normalizeAll? params = some normals := by
  induction params generalizing position normals with
  | nil =>
    obtain rfl := Except.ok.inj success
    rfl
  | cons param rest ih =>
    unfold normalizeParams at success
    split at success
    · cases success
    · rename_i normal found
      obtain ⟨others, foundAll, success⟩ := bind_eq_ok.mp success
      obtain rfl := pure_eq_ok.mp success
      simp [Param.normalizeAll?, found, ih foundAll]

/-- A key consists of what the handler and the graph say about the operator. -/
theorem Graph.instanceKey_eq_ok {graph : Graph} {catalog : Catalog} {index : Nat}
    {operator : Operator} {key : InstanceKey}
    (success : graph.instanceKey catalog index operator = .ok key) :
    ∃ handler, catalog.get? operator.opType = some handler ∧
      key.family = operator.family.getD handler.descriptor.family ∧
      key.opType = operator.opType ∧
      graph.signature? operator = some key.signature ∧
      Param.normalizeAll? operator.params = some key.params := by
  unfold Graph.instanceKey at success
  dsimp only at success
  split at success
  · rename_i handler found
    split at success
    · cases success
    · split at success
      · cases success
      · obtain ⟨params, normalized, success⟩ := bind_eq_ok.mp success
        split at success
        · rename_i signature signed
          obtain rfl := pure_eq_ok.mp success
          exact ⟨handler, found, rfl, rfl, signed,
            normalizeParams_eq_ok (mapError_eq_ok.mp normalized)⟩
        · cases success
  · cases success

namespace InstanceTable

variable {catalog : Catalog} {steps : Nat} {table : InstanceTable}

theorem serves_empty (catalog : Catalog) : Serves catalog 0 {} where
  ids id shared found := by simp at found
  handled shared member := by simp at member
  length := rfl
  assigned id member := by simp at member

theorem Serves.addOccurrence (serves : table.Serves catalog steps) {id : Nat} (step : Nat)
    (inside : id < table.instances.length) :
    (table.addOccurrence step id).Serves catalog (steps + 1) := by
  unfold InstanceTable.addOccurrence
  -- An instance of the new table is one of the old table, but for its occurrences.
  have origin : ∀ (other : Nat) (shared : Instance),
      (table.instances.modify id fun shared =>
        { shared with occurrences := shared.occurrences ++ [step] })[other]? = some shared →
      ∃ old, table.instances[other]? = some old ∧ shared.id = old.id ∧ shared.key = old.key := by
    intro other shared found
    rw [List.getElem?_modify] at found
    obtain ⟨old, present, rfl⟩ := Option.map_eq_some_iff.mp found
    refine ⟨old, present, ?_⟩
    by_cases same : id = other <;> simp [same]
  refine ⟨?_, ?_, ?_, ?_⟩
  · intro other shared found
    obtain ⟨old, present, same, _⟩ := origin other shared found
    exact same.trans (serves.ids other old present)
  · intro shared member
    obtain ⟨other, found⟩ := List.mem_iff_getElem?.mp member
    obtain ⟨old, present, _, same⟩ := origin other shared found
    rw [same]
    exact serves.handled old (List.mem_of_getElem? present)
  · simp [serves.length]
  · intro other member
    rw [List.length_modify]
    rcases List.mem_append.mp member with member | member
    · exact serves.assigned other member
    · exact List.mem_singleton.mp member ▸ inside

theorem Serves.add (serves : table.Serves catalog steps) {key : InstanceKey} (step : Nat)
    (handled : (catalog.get? key.opType).isSome) :
    (table.add step key).Serves catalog (steps + 1) := by
  unfold InstanceTable.add
  split
  · rename_i id found
    exact serves.addOccurrence step (List.findIdx?_eq_some_iff_getElem.mp found).1
  · refine ⟨?_, ?_, ?_, ?_⟩
    · intro other shared found
      rw [List.getElem?_append] at found
      split at found
      · exact serves.ids other shared found
      · rename_i outside
        obtain ⟨inside, rfl⟩ := List.getElem?_eq_some_iff.mp found
        rw [List.length_singleton] at inside
        have last : other - table.instances.length = 0 := by omega
        simp only [last, List.getElem_cons_zero]
        omega
    · intro shared member
      rcases List.mem_append.mp member with member | member
      · exact serves.handled shared member
      · rw [List.mem_singleton.mp member]
        exact handled
    · simp [serves.length]
    · intro other member
      rw [List.length_append, List.length_singleton]
      rcases List.mem_append.mp member with member | member
      · exact Nat.lt_succ_of_lt (serves.assigned other member)
      · rw [List.mem_singleton.mp member]
        exact Nat.lt_succ_self _

/-- An instance enters the table together with the step that is assigned it. -/
theorem add_assigned (used : ∀ id < table.instances.length, id ∈ table.assigned) (step : Nat)
    (key : InstanceKey) :
    ∀ id < (table.add step key).instances.length, id ∈ (table.add step key).assigned := by
  unfold InstanceTable.add
  split
  · intro id inside
    unfold InstanceTable.addOccurrence at inside ⊢
    rw [List.length_modify] at inside
    exact List.mem_append.mpr (.inl (used id inside))
  · intro id inside
    rw [List.length_append, List.length_singleton] at inside
    rcases Nat.lt_succ_iff_lt_or_eq.mp inside with old | isNew
    · exact List.mem_append.mpr (.inl (used id old))
    · exact List.mem_append.mpr (.inr (List.mem_singleton.mpr isNew))

theorem Serves.of_get? (serves : table.Serves catalog steps) {id : Nat} {shared : Instance}
    (found : table.get? id = some shared) :
    shared.id = id ∧ (catalog.get? shared.key.opType).isSome :=
  ⟨serves.ids id shared found, serves.handled shared (List.mem_of_getElem? found)⟩

/-- Every step finds its instance, also by the instance's number. -/
theorem Serves.instanceOf? (serves : table.Serves catalog steps) {step : Nat}
    (inside : step < steps) :
    ∃ shared, table.instanceOf? step = some shared ∧ table.get? shared.id = some shared := by
  rw [← serves.length] at inside
  have assigned := List.getElem?_eq_getElem inside
  have bound := serves.assigned _ (List.getElem_mem inside)
  refine ⟨table.instances[table.assigned[step]], ?_, ?_⟩
  · unfold InstanceTable.instanceOf?
    rw [assigned]
    exact List.getElem?_eq_getElem bound
  · rw [serves.ids _ _ (List.getElem?_eq_getElem bound)]
    exact List.getElem?_eq_getElem bound

end InstanceTable

namespace Graph

theorem shareFrom_cons {graph : Graph} {catalog : Catalog} {operator : Operator}
    {rest : List Operator} {step : Nat} {table : InstanceTable} :
    graph.shareFrom catalog step (operator :: rest) table =
      graph.instanceKey catalog step operator >>= fun key =>
        graph.shareFrom catalog (step + 1) rest (table.add step key) :=
  rfl

theorem shareFrom_eq_ok {graph : Graph} {catalog : Catalog} {operators : List Operator}
    {step : Nat} {before after : InstanceTable} (serves : before.Serves catalog step)
    (success : graph.shareFrom catalog step operators before = .ok after) :
    after.Serves catalog (step + operators.length) := by
  induction operators generalizing step before with
  | nil =>
    obtain rfl := Except.ok.inj success
    exact serves
  | cons operator rest ih =>
    rw [shareFrom_cons] at success
    obtain ⟨key, keyed, success⟩ := bind_eq_ok.mp success
    obtain ⟨handler, found, _, same, _⟩ := instanceKey_eq_ok keyed
    have shared := ih (serves.add step (same ▸ found ▸ rfl)) success
    rw [List.length_cons, Nat.add_comm rest.length, ← Nat.add_assoc]
    exact shared

/-- Every instance of the table is one that a step is assigned. -/
theorem shareFrom_assigned {graph : Graph} {catalog : Catalog} {operators : List Operator}
    {step : Nat} {before after : InstanceTable}
    (used : ∀ id < before.instances.length, id ∈ before.assigned)
    (success : graph.shareFrom catalog step operators before = .ok after) :
    ∀ id < after.instances.length, id ∈ after.assigned := by
  induction operators generalizing step before with
  | nil =>
    obtain rfl := Except.ok.inj success
    exact used
  | cons operator rest ih =>
    rw [shareFrom_cons] at success
    obtain ⟨key, _, success⟩ := bind_eq_ok.mp success
    exact ih (InstanceTable.add_assigned used step key) success

theorem shareInstances_eq_ok {graph : Graph} {catalog : Catalog} {table : InstanceTable}
    (success : graph.shareInstances catalog = .ok table) :
    table.Serves catalog graph.operators.length := by
  have shared := shareFrom_eq_ok (InstanceTable.serves_empty catalog) success
  rwa [Nat.zero_add] at shared

end Graph

end TensorArena
