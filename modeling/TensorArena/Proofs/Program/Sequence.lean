import TensorArena.Catalog.Standard
import TensorArena.Proofs.Arena.Ownership
import TensorArena.Proofs.Graph.Boundary
import TensorArena.Proofs.Program.Batches
import TensorArena.Proofs.Program.Completion

/-!
# The sequence of a program

An assembled program is a well-formed sequence. It evaluates the operators in their order, each by
its own instance, introduces every instance before its first evaluation, registers every tensor
once, and flushes where something waits.
-/

set_option autoImplicit false

namespace TensorArena

namespace Step

def isEnqueue : Step → Bool
  | .enqueue _ _ _ => true
  | _ => false

/-- The tensor that a step registers. -/
def registered? : Step → Option String
  | .register tensor => some tensor
  | _ => none

theorem registered?_eq_some_iff {step : Step} {tensor : String} :
    step.registered? = some tensor ↔ step = .register tensor := by
  cases step <;> simp [registered?]

end Step

/-- The inputs and constants of a graph in the order of their declaration. -/
def Graph.entryNames (graph : Graph) : List String :=
  (graph.tensors.map Tensor.name).filter fun name => graph.role? name ≠ some .intermediate

/-- The steps introduce an instance: once, in one place, and before they evaluate it. -/
structure Introduces (id : Nat) (steps : List Step) : Prop where
  declared : steps.count (.declare id) = 1
  constructed : steps.count (.construct id) = 1
  first : ∃ before after, steps = before ++ .declare id :: .construct id :: after ∧
    ∀ step operator, .enqueue step operator id ∉ before

/-- The steps are those of a program for the graph in good order. -/
structure Graph.Sequences (graph : Graph) (table : InstanceTable) (batching : Batching)
    (steps : List Step) : Prop where
  /-- The evaluations are those of the operators in their order, by their own instances. -/
  evaluates : List.Forall₂ (fun step evaluation => ∃ shared,
    table.instanceOf? step = some shared ∧ evaluation = .enqueue step step shared.id)
    graph.executionOrder (steps.filter Step.isEnqueue)
  introduces : ∀ shared ∈ table.instances, Introduces shared.id steps
  registers : ∀ tensor ∈ graph.tensors, steps.count (.register tensor.name) = 1
  /-- Inputs and constants come first. -/
  entry : ∃ body, steps = graph.entryNames.map Step.register ++ body
  /-- The outputs of an operator come right before its evaluation. -/
  outputs : ∀ (step : Nat) (operator : Operator), graph.operators[step]? = some operator →
    ∃ shared before after, table.instanceOf? step = some shared ∧
      steps = before ++ operator.outputs.map Step.register ++ .enqueue step step shared.id :: after
  flushes : ∀ before after, steps = before ++ .flush :: after → waitingAfter before ≠ []
  ends : graph.operators ≠ [] → steps.getLast? = some .flush
  bounded : ∀ most, batching.maxPending = some most → 0 < most →
    ∀ before, before <+: steps → (waitingAfter before).length ≤ most

/-! ### The pace -/

theorem Paced.waits {limit : Option Nat} {steps before after : List Step} {waiting : List Nat}
    (paced : Paced limit waiting steps) (whole : steps = before ++ .flush :: after) :
    before.foldl Step.wait waiting ≠ [] := by
  subst whole
  exact (paced_append.mp paced).2.1 rfl

theorem Paced.bounded {limit : Option Nat} {before steps : List Step} {waiting : List Nat}
    (paced : Paced limit waiting steps) (part : before <+: steps) {most : Nat}
    (limited : most ∈ limit) (few : waiting.length ≤ most) :
    (before.foldl Step.wait waiting).length ≤ most := by
  obtain ⟨after, rfl⟩ := part
  induction before generalizing waiting with
  | nil => exact few
  | cons step rest ih =>
    obtain ⟨_, fewer, rest⟩ := paced
    exact ih (fewer most limited) rest

/-! ### What the steps contain -/

/-- Steps that leave an instance alone may come before its introduction. -/
theorem Introduces.prepend {id : Nat} {first steps : List Step} (introduces : Introduces id steps)
    (undeclared : first.count (.declare id) = 0) (unconstructed : first.count (.construct id) = 0)
    (unused : ∀ step operator, .enqueue step operator id ∉ first) :
    Introduces id (first ++ steps) := by
  obtain ⟨declared, constructed, before, after, rfl, later⟩ := introduces
  refine ⟨?_, ?_, first ++ before, after, by simp, ?_⟩
  · rw [List.count_append, undeclared, declared]
  · rw [List.count_append, unconstructed, constructed]
  · intro step operator member
    rcases List.mem_append.mp member with here | there
    · exact unused step operator here
    · exact later step operator there

theorem count_register (steps : List Step) (name : String) :
    steps.count (.register name) = (steps.filterMap Step.registered?).count name := by
  rw [List.count_filterMap, List.count]
  apply List.countP_congr
  intro step _
  simp [Step.registered?_eq_some_iff]

theorem filter_isEnqueue_registers (names : List String) :
    (names.map Step.register).filter Step.isEnqueue = [] := by
  rw [List.filter_map, List.map_eq_nil_iff, List.filter_eq_nil_iff]
  exact fun _ _ => nofun

theorem filterMap_registered?_registers (names : List String) :
    (names.map Step.register).filterMap Step.registered? = names := by
  rw [List.filterMap_map]
  exact List.filterMap_some

/-! ### One operator -/

section Operator

variable (batch : Batch) (step : Nat) (operator : Operator) (id : Nat) (must full : Bool)

theorem filter_isEnqueue_operatorSteps :
    (operatorSteps batch step operator id must full).filter Step.isEnqueue =
      [.enqueue step step id] := by
  have introduction : (batch.introduction id).filter Step.isEnqueue = [] := by
    unfold Batch.introduction
    split <;> rfl
  have flushes : ∀ flush, (flushIf flush).filter Step.isEnqueue = [] := by
    intro flush
    cases flush <;> rfl
  simp only [operatorSteps, List.filter_append, introduction, flushes,
    filter_isEnqueue_registers, List.nil_append, List.append_nil]
  rfl

theorem filterMap_registered?_operatorSteps :
    (operatorSteps batch step operator id must full).filterMap Step.registered? =
      operator.outputs := by
  have introduction : (batch.introduction id).filterMap Step.registered? = [] := by
    unfold Batch.introduction
    split <;> rfl
  have flushes : ∀ flush, (flushIf flush).filterMap Step.registered? = [] := by
    intro flush
    cases flush <;> rfl
  have evaluation : [Step.enqueue step step id].filterMap Step.registered? = [] := rfl
  simp only [operatorSteps, List.filterMap_append, introduction, flushes, evaluation,
    filterMap_registered?_registers, List.nil_append, List.append_nil]

/-- Only the introduction of an operator declares or constructs. -/
theorem count_operatorSteps {other : Nat} {introduced : Step}
    (introduces : introduced = .declare other ∨ introduced = .construct other) :
    (operatorSteps batch step operator id must full).count introduced =
      (batch.introduction id).count introduced := by
  have unflushed : ∀ flush, (flushIf flush).count introduced = 0 := by
    intro flush
    rw [List.count_eq_zero]
    intro member
    rw [eq_flush_of_mem member] at introduces
    rcases introduces with same | same <;> cases same
  have unregistered : (operator.outputs.map Step.register).count introduced = 0 := by
    rw [List.count_eq_zero]
    rcases introduces with rfl | rfl <;> simp
  have unlike : [Step.enqueue step step id].count introduced = 0 := by
    rw [List.count_eq_zero]
    rcases introduces with rfl | rfl <;> simp
  simp only [operatorSteps, List.count_append, unflushed, unregistered, unlike, Nat.add_zero]

theorem count_introduction {other : Nat} {introduced : Step}
    (introduces : introduced = .declare other ∨ introduced = .construct other) :
    (batch.introduction id).count introduced =
      if other = id ∧ id ∉ batch.declared then 1 else 0 := by
  unfold Batch.introduction
  by_cases declared : id ∈ batch.declared
  · simp [declared]
  · by_cases same : other = id
    · subst same
      rcases introduces with rfl | rfl <;> simp [declared]
    · have unlike : id ≠ other := Ne.symm same
      rcases introduces with rfl | rfl <;> simp [declared, same, unlike]

theorem enqueue_mem_operatorSteps_iff {other index position : Nat} :
    .enqueue index position other ∈ operatorSteps batch step operator id must full ↔
      index = step ∧ position = step ∧ other = id := by
  have member : Step.enqueue index position other ∈
      (operatorSteps batch step operator id must full).filter Step.isEnqueue ↔
      .enqueue index position other ∈ operatorSteps batch step operator id must full := by
    rw [List.mem_filter]
    exact and_iff_left rfl
  rw [← member, filter_isEnqueue_operatorSteps, List.mem_singleton]
  simp

variable {batch step operator id must full} {others : List Step}

/-- An operator introduces its instance if no operator before it did, and none after it does. -/
theorem operatorSteps_introduces (fresh : id ∉ batch.declared)
    (once : ∀ introduced : Step, introduced = .declare id ∨ introduced = .construct id →
      others.count introduced = 0) :
    Introduces id (operatorSteps batch step operator id must full ++ others) := by
  have counts : ∀ introduced : Step, introduced = .declare id ∨ introduced = .construct id →
      (operatorSteps batch step operator id must full ++ others).count introduced = 1 := by
    intro introduced introduces
    rw [List.count_append, count_operatorSteps _ _ _ _ _ _ introduces,
      count_introduction _ _ introduces, if_pos ⟨rfl, fresh⟩, once introduced introduces]
  refine ⟨counts _ (.inl rfl), counts _ (.inr rfl), [], flushIf must ++
    operator.outputs.map Step.register ++ [.enqueue step step id] ++ flushIf full ++ others, ?_,
    by simp⟩
  unfold operatorSteps Batch.introduction
  rw [if_neg (by simpa using fresh)]
  simp

/-- An operator leaves the instances of other operators alone. -/
theorem Introduces.after_operatorSteps {other : Nat} (introduces : Introduces other others)
    (unlike : other ≠ id) :
    Introduces other (operatorSteps batch step operator id must full ++ others) := by
  have counts : ∀ introduced : Step, introduced = .declare other ∨ introduced = .construct other →
      (operatorSteps batch step operator id must full).count introduced = 0 := by
    intro introduced introduces
    rw [count_operatorSteps _ _ _ _ _ _ introduces, count_introduction _ _ introduces,
      if_neg fun same => unlike same.1]
  exact introduces.prepend (counts _ (.inl rfl)) (counts _ (.inr rfl)) fun _ _ member =>
    unlike ((enqueue_mem_operatorSteps_iff _ _ _ _ _ _).mp member).2.2

end Operator

/-! ### The operators from a step on -/

section Rest

variable {plan : Plan} {table : InstanceTable} {batching : Batching} {operators : List Operator}

theorem assembleFrom_evaluates :
    ∀ {step : Nat} {batch : Batch} {steps : List Step},
      assembleFrom plan table batching step operators batch = .ok steps →
      List.Forall₂ (fun step evaluation => ∃ shared, table.instanceOf? step = some shared ∧
        evaluation = .enqueue step step shared.id)
        (List.range' step operators.length) (steps.filter Step.isEnqueue) := by
  induction operators with
  | nil =>
    intro step batch steps success
    rw [assembleFrom_nil_eq_ok success, flushIf]
    split <;> exact .nil
  | cons operator rest ih =>
    intro step batch steps success
    obtain ⟨shared, must, others, assigned, _, found, rfl⟩ := assembleFrom_cons_eq_ok success
    rw [List.filter_append, filter_isEnqueue_operatorSteps, List.length_cons, List.range'_succ]
    exact .cons ⟨shared, assigned, rfl⟩ (ih found)

theorem assembleFrom_registers :
    ∀ {step : Nat} {batch : Batch} {steps : List Step},
      assembleFrom plan table batching step operators batch = .ok steps →
      steps.filterMap Step.registered? = operators.flatMap Operator.outputs := by
  induction operators with
  | nil =>
    intro step batch steps success
    rw [assembleFrom_nil_eq_ok success, flushIf]
    split <;> rfl
  | cons operator rest ih =>
    intro step batch steps success
    obtain ⟨shared, must, others, _, _, found, rfl⟩ := assembleFrom_cons_eq_ok success
    rw [List.filterMap_append, filterMap_registered?_operatorSteps, ih found, List.flatMap_cons]

/-- What has been introduced is not introduced again. -/
theorem assembleFrom_introduced {id : Nat} {introduced : Step}
    (introduces : introduced = .declare id ∨ introduced = .construct id) :
    ∀ {step : Nat} {batch : Batch} {steps : List Step}, id ∈ batch.declared →
      assembleFrom plan table batching step operators batch = .ok steps →
      steps.count introduced = 0 := by
  induction operators with
  | nil =>
    intro step batch steps _ success
    rw [assembleFrom_nil_eq_ok success, List.count_eq_zero]
    intro member
    rw [eq_flush_of_mem member] at introduces
    rcases introduces with same | same <;> cases same
  | cons operator rest ih =>
    intro step batch steps declared success
    obtain ⟨shared, must, others, _, _, found, rfl⟩ := assembleFrom_cons_eq_ok success
    have known : id ∈ (batch.next batching shared.id step must).declared := by
      rw [Batch.next_declared]
      exact Batch.mem_introduce.mpr (.inr declared)
    rw [List.count_append, ih known found, count_operatorSteps _ _ _ _ _ _ introduces,
      count_introduction _ _ introduces, if_neg]
    rintro ⟨rfl, fresh⟩
    exact fresh declared

/-- An instance is introduced by the first operator that it evaluates. -/
theorem assembleFrom_introduces {id : Nat} :
    ∀ {step : Nat} {batch : Batch} {steps : List Step}, id ∉ batch.declared →
      (∃ index < operators.length, ∃ shared,
        table.instanceOf? (step + index) = some shared ∧ shared.id = id) →
      assembleFrom plan table batching step operators batch = .ok steps →
      Introduces id steps := by
  induction operators with
  | nil =>
    rintro step batch steps _ ⟨index, inside, _⟩ _
    cases inside
  | cons operator rest ih =>
    rintro step batch steps fresh ⟨index, inside, used, isUsed, named⟩ success
    obtain ⟨shared, must, others, assigned, _, found, rfl⟩ := assembleFrom_cons_eq_ok success
    have declared : id ∈ (batch.next batching shared.id step must).declared ↔
        id = shared.id ∨ id ∈ batch.declared := by
      rw [Batch.next_declared]
      exact Batch.mem_introduce
    by_cases now : id = shared.id
    · subst now
      exact operatorSteps_introduces fresh fun introduced introduces =>
        assembleFrom_introduced introduces (declared.mpr (.inl rfl)) found
    · have later : ∃ index < rest.length, ∃ shared,
          table.instanceOf? (step + 1 + index) = some shared ∧ shared.id = id := by
        cases index with
        | zero =>
          obtain rfl := Option.some.inj (assigned.symm.trans isUsed)
          exact absurd named.symm now
        | succ index =>
          refine ⟨index, Nat.lt_of_succ_lt_succ inside, used, ?_, named⟩
          rwa [Nat.add_assoc, Nat.add_comm 1]
      exact (ih (fun member => (declared.mp member).elim now fresh) later found).after_operatorSteps
        now

end Rest

/-! ### The whole program -/

section Program

variable {graph : Graph} {lifetimes : Lifetimes} {options : ArenaOptions} {plan : Plan}
  {table : InstanceTable} {batching : Batching}

/-- The tensors registered at the entry are the inputs and constants in their order. -/
theorem Graph.Planned.entrySteps_eq (planned : graph.Planned lifetimes options plan) :
    plan.entrySteps = graph.entryNames.map Step.register := by
  have roles : plan.entries.filter (fun entry => entry.role ≠ .intermediate) =
      plan.entries.filter fun entry => graph.role? entry.name ≠ some .intermediate := by
    apply List.filter_congr
    intro entry listed
    obtain ⟨lifetime, member, _, named, role, _⟩ := planned.toRecorded.lifetime listed
    rw [named, (planned.known member).role, role]
    simp
  have names := planned.fits.names planned.exact
  unfold Plan.entrySteps Graph.entryNames
  rw [roles, ← names, List.filter_map, List.map_map]
  rfl

/-- The inputs, the constants and the outputs of the operators are all the tensors. -/
theorem Lifetimes.Exact.registered_perm (exact : lifetimes.Exact graph) :
    (graph.entryNames ++ graph.operators.flatMap Operator.outputs).Perm
      (graph.tensors.map Tensor.name) := by
  refine (List.perm_ext_iff_of_nodup ?_ exact.distinct).mpr ?_
  · refine List.nodup_append.mpr ⟨exact.distinct.sublist List.filter_sublist,
      exact.outputs_nodup, ?_⟩
    rintro name entry _ written rfl
    have role := (exact.mem_outputs_iff.mp written).2
    simp [Graph.entryNames, role] at entry
  · intro name
    rw [List.mem_append, exact.mem_outputs_iff, Graph.entryNames, List.mem_filter]
    by_cases role : graph.role? name = some .intermediate <;> simp [role]

theorem Graph.assemble_eq_ok {steps : List Step}
    (planned : graph.Planned lifetimes options plan)
    (success : graph.assemble plan table batching = .ok steps) :
    ∃ body, assembleFrom plan table batching 0 graph.operators {} = .ok body ∧
      steps = graph.entryNames.map Step.register ++ body := by
  unfold Graph.assemble at success
  obtain ⟨body, assembled, success⟩ := bind_eq_ok.mp success
  obtain rfl := pure_eq_ok.mp success
  exact ⟨body, assembled, by rw [planned.entrySteps_eq]⟩

/-- A limit of zero does not bound a batch, which has an evaluation when it is flushed. -/
theorem assembled_paced (names : List String) {body : List Step}
    (assembled : assembleFrom plan table batching 0 graph.operators {} = .ok body) :
    Paced (batching.maxPending.filter (0 < ·)) [] (names.map Step.register ++ body) := by
  have idle := registers_idle names
  refine paced_append.mpr ⟨paced_of_idle idle fun _ _ => Nat.zero_le _, ?_⟩
  rw [foldl_wait_of_idle idle]
  refine assembleFrom_paced (fun most limited => ?_) .initial (fun most limited => ?_) assembled
  · simpa using Option.mem_filter_iff.mp limited
  · simpa using (Option.mem_filter_iff.mp limited).2

theorem assembled_introduces {catalog : Catalog} {body : List Step} {own : Instance}
    (shared : graph.shareInstances catalog = .ok table) (listed : own ∈ table.instances)
    (assembled : assembleFrom plan table batching 0 graph.operators {} = .ok body) :
    Introduces own.id body := by
  obtain ⟨id, found⟩ := List.mem_iff_getElem?.mp listed
  have inside := (List.getElem?_eq_some_iff.mp found).1
  obtain ⟨index, used⟩ :=
    List.mem_iff_getElem?.mp (Graph.shareFrom_assigned (by simp) shared id inside)
  have bound := (List.getElem?_eq_some_iff.mp used).1
  rw [(Graph.shareInstances_eq_ok shared).length] at bound
  exact assembleFrom_introduces (by simp)
    ⟨index, bound, own, by simp [InstanceTable.instanceOf?, InstanceTable.get?, used, found], rfl⟩
    assembled

/-- The assembly of a planned graph is a sequence in good order. -/
theorem Graph.Planned.sequences {catalog : Catalog} {steps : List Step}
    (planned : graph.Planned lifetimes options plan)
    (shared : graph.shareInstances catalog = .ok table)
    (success : graph.assemble plan table batching = .ok steps) :
    graph.Sequences table batching steps := by
  obtain ⟨body, assembled, rfl⟩ := Graph.assemble_eq_ok planned success
  have paced := assembled_paced graph.entryNames assembled
  refine ⟨?_, ?_, ?_, ⟨body, rfl⟩, ?_, fun _ _ whole => paced.waits whole, ?_, ?_⟩
  · rw [List.filter_append, filter_isEnqueue_registers, List.nil_append, Graph.executionOrder,
      List.range_eq_range']
    exact assembleFrom_evaluates assembled
  · intro own listed
    exact (assembled_introduces shared listed assembled).prepend (List.count_eq_zero.mpr (by simp))
      (List.count_eq_zero.mpr (by simp)) (by simp)
  · intro tensor listed
    rw [count_register, List.filterMap_append, filterMap_registered?_registers,
      assembleFrom_registers assembled, planned.exact.registered_perm.count_eq]
    exact List.count_eq_one_of_mem planned.exact.distinct (List.mem_map_of_mem listed)
  · intro step operator present
    obtain ⟨before, own, must, after, current, assigned, _, _, _, rfl⟩ :=
      assembleFrom_split .initial present assembled
    rw [Nat.zero_add] at assigned ⊢
    refine ⟨own, graph.entryNames.map Step.register ++ before ++ current.introduction own.id ++
      flushIf must, flushIf ((current.joined own.id step must).isFull batching) ++ after, assigned,
      ?_⟩
    simp [operatorSteps]
  · intro operators
    rw [List.getLast?_append, assembleFrom_getLast? (.inl operators) assembled]
    rfl
  · intro most limited positive before part
    have gated : most ∈ batching.maxPending.filter (0 < ·) := by simp [limited, positive]
    exact paced.bounded part gated (Nat.zero_le _)

end Program

/-- A program for a graph that has been checked, analysed, planned and given its instances is there
for every batching, and it is a sequence in good order. -/
theorem Graph.assemble_sequences (graph : Graph) (catalog : Catalog) (options : ArenaOptions)
    (lifetimes : Lifetimes) (plan : Plan) (table : InstanceTable)
    (valid : graph.validate = .ok ()) (analysed : graph.lifetimes = .ok lifetimes)
    (planned : graph.plan lifetimes options = .ok plan)
    (shared : graph.shareInstances catalog = .ok table) (batching : Batching) :
    ∃ steps, graph.assemble plan table batching = .ok steps ∧
      graph.Sequences table batching steps := by
  obtain ⟨distinct, declared⟩ := validate_eq_ok valid
  have sound : Launch.Sound options catalog
      ⟨graph, lifetimes, plan, table, fun _ symbol => .idle Unit symbol, ()⟩ :=
    ⟨.of_eq_ok analysed planned, shareInstances_eq_ok shared, fun _ _ _ _ _ => rfl⟩
  obtain ⟨steps, assembled, _⟩ := Launch.assemble_executes sound distinct declared batching
  exact ⟨steps, assembled, (Planned.of_eq_ok analysed planned).sequences shared assembled⟩

theorem Graph.relay_sequences :
    ∃ lifetimes plan table, relay.validate = .ok () ∧ relay.lifetimes = .ok lifetimes ∧
      relay.plan lifetimes {} = .ok plan ∧ relay.shareInstances .standard = .ok table ∧
      ∃ steps, relay.assemble plan table { maxPending := some 2 } = .ok steps ∧
        relay.Sequences table { maxPending := some 2 } steps :=
  ⟨_, _, _, rfl, rfl, rfl, rfl, assemble_sequences relay .standard {} _ _ _ rfl rfl rfl rfl
    { maxPending := some 2 }⟩

end TensorArena
