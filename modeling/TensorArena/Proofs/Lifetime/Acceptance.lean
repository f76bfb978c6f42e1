import TensorArena.Proofs.Lifetime.Interval

/-!
# Graphs with lifetimes

The tensors of a graph have lifetimes just when the graph is well-ordered: every name is declared
once, every intermediate tensor is written once and read later only, and inputs and constants are
not written but used.
-/

set_option autoImplicit false

namespace TensorArena

namespace Graph

/-- Each tensor is declared once and comes from one place, and no step reads what is not there
yet. -/
structure WellOrdered (graph : Graph) : Prop where
  distinct : (graph.tensors.map Tensor.name).Nodup
  declared : ∀ operator ∈ graph.operators, ∀ name ∈ operator.inputs ++ operator.outputs,
    name ∈ graph.tensors.map Tensor.name
  /-- Operators write no inputs and no constants. -/
  unwritten : ∀ operator ∈ graph.operators, ∀ name ∈ operator.outputs,
    graph.role? name ≠ some .input ∧ graph.role? name ≠ some .constant
  writtenOnce : ∀ tensor ∈ graph.tensors, graph.role? tensor.name = some .intermediate →
    (graph.operators.flatMap Operator.outputs).count tensor.name = 1
  readLater : ∀ name writer reader, graph.role? name = some .intermediate →
    graph.Writes writer name → graph.Reads reader name → writer < reader
  /-- No input and no constant is there for nothing. -/
  used : ∀ tensor ∈ graph.tensors,
    graph.role? tensor.name = some .input ∨ graph.role? tensor.name = some .constant →
      (∃ operator ∈ graph.operators, tensor.name ∈ operator.inputs) ∨
        tensor.name ∈ graph.outputs

variable {graph : Graph} {producers : Producers} {step : Nat} {name : String}

theorem exists_role_iff :
    (∃ role, graph.role? name = some role) ↔ name ∈ graph.tensors.map Tensor.name := by
  rw [← Option.isSome_iff_exists, role?, Option.isSome_map, tensor?, List.find?_isSome,
    List.mem_map]
  simp only [beq_iff_eq]

/-! ### Checks that succeed -/

theorem checkNames_of_nodup {seen : List String} {tensors : List Tensor}
    (distinct : (tensors.map Tensor.name).Nodup)
    (fresh : ∀ tensor ∈ tensors, tensor.name ∉ seen) : checkNames seen tensors = .ok () := by
  induction tensors generalizing seen with
  | nil => rfl
  | cons tensor rest ih =>
    have ⟨new, others⟩ := List.nodup_cons.mp (List.map_cons ▸ distinct)
    rw [checkNames, if_neg (by simpa using fresh tensor (List.mem_cons_self ..))]
    apply ih others
    intro other member repeated
    rcases List.mem_cons.mp repeated with same | old
    · exact new (same ▸ List.mem_map_of_mem member)
    · exact fresh other (List.mem_cons_of_mem _ member) old

theorem addProducer_of_fresh (step : Nat) (role : graph.role? name = some .intermediate)
    (fresh : name ∉ producers.map Prod.fst) :
    graph.addProducer step producers name = .ok ((name, step) :: producers) := by
  rw [addProducer, role]
  dsimp only
  rw [Producers.step?, lookup_eq_none_iff.mpr fresh]

theorem addProducers_of_nodup (step : Nat) (producers : Producers) {outputs : List String}
    (roles : ∀ name ∈ outputs, graph.role? name = some .intermediate)
    (distinct : (outputs ++ producers.map Prod.fst).Nodup) :
    ∃ after, outputs.foldlM (graph.addProducer step) producers = .ok after ∧
      (after.map Prod.fst).Perm (outputs ++ producers.map Prod.fst) := by
  induction outputs generalizing producers with
  | nil => exact ⟨producers, rfl, .refl _⟩
  | cons name rest ih =>
    have fresh : name ∉ producers.map Prod.fst :=
      fun known => (List.nodup_cons.mp distinct).1 (List.mem_append_right _ known)
    have added := addProducer_of_fresh step (roles name (List.mem_cons_self ..)) fresh
    -- A name that moves from the outputs to the producers leaves the names as a whole the same.
    have shifted : (name :: rest ++ producers.map Prod.fst).Perm
        (rest ++ name :: producers.map Prod.fst) := List.perm_middle.symm
    have ⟨after, walked, collected⟩ := ih ((name, step) :: producers)
      (fun other member => roles other (List.mem_cons_of_mem _ member))
      (shifted.nodup_iff.mp distinct)
    refine ⟨after, ?_, collected.trans shifted.symm⟩
    rw [List.foldlM_cons, added, ok_bind]
    exact walked

theorem producersFrom_of_nodup (step : Nat) (producers : Producers) {operators : List Operator}
    (roles : ∀ name ∈ operators.flatMap Operator.outputs, graph.role? name = some .intermediate)
    (distinct : (operators.flatMap Operator.outputs ++ producers.map Prod.fst).Nodup) :
    ∃ after, graph.producersFrom step producers operators = .ok after := by
  induction operators generalizing step producers with
  | nil => exact ⟨producers, rfl⟩
  | cons operator rest ih =>
    rw [List.flatMap_cons] at roles distinct
    have shifted := List.perm_append_comm_assoc operator.outputs
      (rest.flatMap Operator.outputs) (producers.map Prod.fst)
    rw [← List.append_assoc] at shifted
    have later := shifted.nodup_iff.mp distinct
    have ⟨middle, added, collected⟩ := addProducers_of_nodup step producers
      (fun name member => roles name (List.mem_append_left _ member))
      (List.nodup_append.mp later).2.1
    have ⟨after, walked⟩ := ih (step + 1) middle
      (fun name member => roles name (List.mem_append_right _ member))
      ((collected.append_left _).nodup_iff.mpr later)
    refine ⟨after, ?_⟩
    rw [producersFrom, added, ok_bind]
    exact walked

theorem checkRead_of_before {role : Role} (known : graph.role? name = some role)
    (before : role = .intermediate →
      ∃ written, producers.step? name = some written ∧ written < step) :
    graph.checkRead producers step name = .ok () := by
  rw [checkRead, known]
  cases role with
  | intermediate =>
    have ⟨written, found, earlier⟩ := before rfl
    dsimp only
    rw [found]
    exact if_pos earlier
  | input => rfl
  | constant => rfl

theorem checkReadsFrom_of_forall {operators : List Operator}
    (readable : ∀ index name, OccursFrom Operator.inputs operators step index name →
      graph.checkRead producers index name = .ok ()) :
    graph.checkReadsFrom producers step operators = .ok () := by
  induction operators generalizing step with
  | nil => rfl
  | cons operator rest ih =>
    rw [checkReadsFrom, check_bind_eq_ok]
    constructor
    · apply forM_eq_ok.mpr
      intro name member
      exact readable step name (occursFrom_cons.mpr (.inl ⟨rfl, member⟩))
    · apply ih
      intro index name occurs
      exact readable index name (occursFrom_cons.mpr (.inr occurs))

theorem exists_lifetime {tensor : Tensor} {role : Role}
    (known : graph.role? tensor.name = some role)
    (produced : role = .intermediate → (producers.step? tensor.name).isSome)
    (used : role ≠ .intermediate →
      consumersFrom tensor.name 0 graph.operators ≠ [] ∨ graph.isOutput tensor.name) :
    ∃ lifetime, graph.lifetime producers tensor = .ok lifetime := by
  unfold Graph.lifetime
  rw [known]
  dsimp only [Option.getD_some]
  split
  · rename_i missing
    rw [Bool.and_eq_true, decide_eq_true_eq, Option.isNone_iff_eq_none] at missing
    have found := produced missing.1
    rw [missing.2] at found
    cases found
  · split
    · rename_i unused
      simp only [Bool.and_eq_true, List.isEmpty_iff, Bool.not_eq_true', decide_eq_true_eq] at unused
      rcases used unused.2 with read | output
      · exact absurd unused.1.1 read
      · rw [unused.1.2] at output
        cases output
    · exact ⟨_, rfl⟩

/-! ### Well-ordered graphs -/

namespace WellOrdered

theorem role_of_mem_outputs (ordered : graph.WellOrdered)
    (written : name ∈ graph.operators.flatMap Operator.outputs) :
    graph.role? name = some .intermediate := by
  have ⟨operator, listed, output⟩ := List.mem_flatMap.mp written
  have ⟨role, known⟩ := exists_role_iff.mpr
    (ordered.declared operator listed name (List.mem_append_right _ output))
  have ⟨noInput, noConstant⟩ := ordered.unwritten operator listed name output
  rw [known] at noInput noConstant ⊢
  cases role with
  | input => exact absurd rfl noInput
  | constant => exact absurd rfl noConstant
  | intermediate => rfl

theorem outputs_nodup (ordered : graph.WellOrdered) :
    (graph.operators.flatMap Operator.outputs).Nodup := by
  rw [List.nodup_iff_count_le_one]
  intro name
  by_cases written : name ∈ graph.operators.flatMap Operator.outputs
  · have role := ordered.role_of_mem_outputs written
    have ⟨tensor, member, named⟩ := List.mem_map.mp (exists_role_iff.mp ⟨_, role⟩)
    subst named
    exact Nat.le_of_eq (ordered.writtenOnce tensor member role)
  · rw [List.count_eq_zero_of_not_mem written]
    exact Nat.zero_le 1

theorem exists_writer (ordered : graph.WellOrdered) (role : graph.role? name = some .intermediate) :
    ∃ step, graph.Writes step name := by
  have ⟨tensor, member, named⟩ := List.mem_map.mp (exists_role_iff.mp ⟨_, role⟩)
  subst named
  rw [← mem_outputs_iff_writes, ← List.count_pos_iff, ordered.writtenOnce tensor member role]
  exact Nat.one_pos

section

variable (ordered : graph.WellOrdered)
  (written : ∀ name step, producers.step? name = some step ↔ graph.Writes step name)

include ordered written

theorem checkReadsFrom_eq_ok : graph.checkReadsFrom producers 0 graph.operators = .ok () := by
  apply checkReadsFrom_of_forall
  intro step name occurs
  have reads := occursFrom_inputs.mp occurs
  have ⟨operator, listed, read⟩ := mem_inputs_iff_reads.mpr ⟨step, reads⟩
  have ⟨role, known⟩ := exists_role_iff.mpr
    (ordered.declared operator listed name (List.mem_append_left _ read))
  apply checkRead_of_before known
  intro intermediate
  subst intermediate
  have ⟨writer, writes⟩ := ordered.exists_writer known
  exact ⟨writer, (written name writer).mpr writes,
    ordered.readLater name writer step known writes reads⟩

theorem exists_lifetime {tensor : Tensor} (member : tensor ∈ graph.tensors) :
    ∃ lifetime, graph.lifetime producers tensor = .ok lifetime := by
  have ⟨role, known⟩ := exists_role_iff.mpr (List.mem_map_of_mem member)
  apply Graph.exists_lifetime known
  · intro intermediate
    subst intermediate
    have ⟨writer, writes⟩ := ordered.exists_writer known
    rw [(written tensor.name writer).mpr writes]
    rfl
  · intro outside
    have boundary : graph.role? tensor.name = some .input ∨
        graph.role? tensor.name = some .constant := by
      rw [known]
      cases role with
      | input => exact .inl rfl
      | constant => exact .inr rfl
      | intermediate => exact absurd rfl outside
    rcases ordered.used tensor member boundary with read | output
    · have ⟨step, reads⟩ := mem_inputs_iff_reads.mp read
      exact .inl (List.ne_nil_of_mem (mem_consumersFrom.mpr (occursFrom_inputs.mpr reads)))
    · exact .inr (List.contains_iff_mem.mpr output)

end

theorem exists_lifetimes (ordered : graph.WellOrdered) :
    ∃ lifetimes, graph.lifetimes = .ok lifetimes := by
  have table : graph.checkTable.mapError LifetimeError.graph = .ok () :=
    mapError_eq_ok.mpr (checkNames_of_nodup ordered.distinct (by simp))
  have ⟨producers, walked⟩ := producersFrom_of_nodup 0 []
    (fun name => ordered.role_of_mem_outputs) (by simpa using ordered.outputs_nodup)
  have written := step?_eq_some_iff_writes walked
  have readable := ordered.checkReadsFrom_eq_ok written
  have ⟨tensors, found⟩ := mapM_eq_ok_of_forall fun tensor => ordered.exists_lifetime written
  refine ⟨⟨tensors, graph.operators.length⟩, ?_⟩
  rw [Graph.lifetimes, table, ok_bind, walked, ok_bind, readable, ok_bind, found, ok_bind]
  rfl

end WellOrdered

end Graph

namespace Lifetimes.Exact

variable {graph : Graph} {lifetimes : Lifetimes}

theorem wellOrdered (exact : lifetimes.Exact graph) : graph.WellOrdered where
  distinct := exact.distinct
  declared := by
    intro operator listed name occurs
    have ⟨step, present⟩ := List.mem_iff_getElem?.mp listed
    apply Graph.exists_role_iff.mp
    rcases List.mem_append.mp occurs with read | written
    · exact exact.reads step name ⟨operator, present, read⟩
    · exact ⟨_, exact.writes step name ⟨operator, present, written⟩⟩
  unwritten := by
    intro operator listed name written
    have ⟨step, present⟩ := List.mem_iff_getElem?.mp listed
    rw [exact.writes step name ⟨operator, present, written⟩]
    exact ⟨by decide, by decide⟩
  writtenOnce := by
    intro tensor member role
    apply List.count_eq_one_of_mem exact.outputs_nodup
    exact exact.mem_outputs_iff.mpr ⟨List.mem_map_of_mem member, role⟩
  readLater := by
    intro name writer reader _ writes reads
    have ⟨lifetime, member, named⟩ := exact.exists_of_writes writes
    subst named
    have known := exact.exact_of_mem member
    exact known.before writer reader ((known.producer writer).mpr writes)
      ((known.consumers reader).mpr reads)
  used := by
    intro tensor member boundary
    have ⟨lifetime, listed, named⟩ :=
      List.mem_map.mp (exact.names ▸ List.mem_map_of_mem member)
    have known := exact.exact_of_mem listed
    rw [← named] at boundary ⊢
    have outside : lifetime.role ≠ .intermediate := by
      intro intermediate
      rw [known.role, intermediate] at boundary
      rcases boundary with same | same <;> cases same
    rcases known.used outside with read | output
    · have ⟨reader, consumes⟩ := List.exists_mem_of_ne_nil _ read
      exact .inl (Graph.mem_inputs_iff_reads.mpr ⟨reader, (known.consumers reader).mp consumes⟩)
    · exact .inr (known.isOutput_iff.mp output)

end Lifetimes.Exact

/-- Lifetimes are defined for the well-ordered graphs and for no others. -/
theorem Graph.lifetimes_defined_iff (graph : Graph) :
    (∃ lifetimes, graph.lifetimes = .ok lifetimes) ↔ graph.WellOrdered := by
  constructor
  · intro ⟨lifetimes, defined⟩
    exact (Graph.lifetimes_eq_ok defined).wellOrdered
  · exact Graph.WellOrdered.exists_lifetimes

end TensorArena
