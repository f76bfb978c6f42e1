import TensorArena.Proofs.Program.Configuration

/-!
# Instances and their operators

An instance has the key of some operator, and is named after its operator type. The instance of an
operator has the operator's own key, and the handler of its type fits the operator.
-/

set_option autoImplicit false

namespace TensorArena

namespace Graph

variable {graph : Graph} {catalog : Catalog} {table : InstanceTable} {index : Nat}
  {operator : Operator} {key : InstanceKey}

/-- A handler has as many operands as the operators of its type. -/
theorem instanceKey_arity (success : graph.instanceKey catalog index operator = .ok key)
    {handler : Handler} (handled : catalog.get? operator.opType = some handler) :
    operator.inputs.length = handler.descriptor.inputs.length ∧
      operator.outputs.length = handler.descriptor.outputs.length := by
  unfold instanceKey at success
  dsimp only at success
  rw [handled] at success
  dsimp only at success
  split at success
  · cases success
  next fits =>
    simpa using fits

/-- The symbol is one for the instance's key, and the key is that of an operator. -/
structure Describes (graph : Graph) (catalog : Catalog) (shared : Instance) : Prop where
  symbol : ∃ id, shared.symbol = instanceName shared.key.opType id
  key : ∃ index, ∃ operator ∈ graph.operators,
    graph.instanceKey catalog index operator = .ok shared.key

theorem add_describes {before : InstanceTable} (step : Nat)
    (described : ∀ shared ∈ before.instances, graph.Describes catalog shared)
    (member : operator ∈ graph.operators)
    (keyed : graph.instanceKey catalog index operator = .ok key) :
    ∀ shared ∈ (before.add step key).instances, graph.Describes catalog shared := by
  unfold InstanceTable.add
  split
  next id _ =>
    intro shared listed
    have ⟨position, found⟩ := List.mem_iff_getElem?.mp listed
    unfold InstanceTable.addOccurrence at found
    rw [List.getElem?_modify] at found
    have ⟨old, present, same⟩ := Option.map_eq_some_iff.mp found
    have known := described old (List.mem_of_getElem? present)
    have parts : shared.symbol = old.symbol ∧ shared.key = old.key := by
      rw [← same]
      by_cases here : id = position <;> simp [here]
    constructor
    · rw [parts.1, parts.2]
      exact known.symbol
    · rw [parts.2]
      exact known.key
  · intro shared listed
    rcases List.mem_append.mp listed with old | new
    · exact described shared old
    · rw [List.mem_singleton.mp new]
      exact ⟨⟨_, rfl⟩, index, operator, member, keyed⟩

theorem shareFrom_describes {operators : List Operator} {step : Nat}
    {before after : InstanceTable}
    (described : ∀ shared ∈ before.instances, graph.Describes catalog shared)
    (inside : ∀ operator ∈ operators, operator ∈ graph.operators)
    (success : graph.shareFrom catalog step operators before = .ok after) :
    ∀ shared ∈ after.instances, graph.Describes catalog shared := by
  induction operators generalizing step before with
  | nil =>
    cases success
    exact described
  | cons operator rest ih =>
    rw [List.forall_mem_cons] at inside
    rw [shareFrom_cons] at success
    obtain ⟨key, keyed, later⟩ := bind_eq_ok.mp success
    exact ih (add_describes step described inside.1 keyed) inside.2 later

theorem shareInstances_describes (shared : graph.shareInstances catalog = .ok table) :
    ∀ shared ∈ table.instances, graph.Describes catalog shared :=
  shareFrom_describes (by simp) (fun _ => id) shared

/-- Operators with keys of the same encoding have the same key, so an instance is as good as one of
the operator's own. -/
theorem instanceOf?_key (shared : graph.shareInstances catalog = .ok table)
    (sized : ∀ operator ∈ graph.operators, operator.Addressable)
    (families : ∀ handler ∈ catalog.handlers, handler.descriptor.family.utf8ByteSize < sizeLimit)
    {step : Nat} (present : graph.operators[step]? = some operator) {found : Instance}
    (isInstance : table.instanceOf? step = some found) :
    ∃ index, graph.instanceKey catalog index operator = .ok found.key := by
  have nothing : InstanceTable.Keyed [] {} := ⟨List.nodup_nil, .nil⟩
  have ⟨keys, keyed, pairs⟩ := shareFrom_keys nothing shared
  rw [List.nil_append] at keyed
  have ⟨inside, same⟩ := List.getElem?_eq_some_iff.mp present
  have keyBound : step < keys.length := pairs.length_eq ▸ inside
  have ⟨index, isKey⟩ := (List.forall₂_iff_get.mp pairs).2 step inside keyBound
  have bound : step < table.assigned.length := keyed.assigned.length_eq ▸ keyBound
  have encoded := (List.forall₂_iff_get.mp keyed.assigned).2 step bound keyBound
  have entry : table.instances[table.assigned.get ⟨step, bound⟩]? = some found := by
    unfold InstanceTable.instanceOf? at isInstance
    rw [List.getElem?_eq_getElem bound] at isInstance
    exact isInstance
  have encodings : found.key.encode = (keys.get ⟨step, keyBound⟩).encode := by
    unfold InstanceTable.encodings at encoded
    rw [List.getElem?_map, entry] at encoded
    exact Option.some.inj encoded
  have ⟨otherIndex, other, member, otherKey⟩ :=
    (shareInstances_describes shared found (List.mem_of_getElem? entry)).key
  have left := instanceKey_addressable otherKey (sized other member) families
  have right := instanceKey_addressable isKey (sized _ (List.getElem_mem inside)) families
  refine ⟨index, ?_⟩
  rw [InstanceKey.encode_injective left right encodings, ← same]
  exact isKey

end Graph

end TensorArena
