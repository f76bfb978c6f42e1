import Mathlib.Algebra.Order.Ring.Nat
import TensorArena.Proofs.Program.Configuration
import TensorArena.Proofs.Text.Symbols

/-!
# The evaluations of instances

The instances share the steps of an execution out among themselves: every step is an occurrence of
the one instance that it is assigned. An instance is added when it is needed first, so instances
stand in the order of their first occurrences, and their numbers keep their names apart.
-/

set_option autoImplicit false

namespace TensorArena

/-! ### Names -/

/-- An instance's name without its number. -/
def instanceStem (opType : String) : String :=
  "op_" ++ (Identifier.sanitize opType).map Char.toLower

theorem toList_instanceName (opType : String) (id : Nat) :
    (instanceName opType id).toList = (instanceStem opType).toList ++ '_' :: paddedDigits 3 id := by
  unfold instanceName instanceStem paddedDigits
  simp

/-- The number of an instance can be read off its name. -/
theorem id_eq_of_instanceName_eq {left right : String} {first second : Nat}
    (same : instanceName left first = instanceName right second) : first = second := by
  have texts := congrArg String.toList same
  rw [toList_instanceName, toList_instanceName] at texts
  have numbers := (append_underscore_inj (underscore_not_mem (paddedDigits_isDigit 3 first))
    (underscore_not_mem (paddedDigits_isDigit 3 second)) texts).2
  exact paddedDigits_injective 3 numbers

theorem isIdentifier_instanceName (opType : String) (id : Nat) :
    Identifier.isIdentifier (instanceName opType id) = true := by
  have letters := Identifier.all_isPart_of_isIdentifier (Identifier.isIdentifier_sanitize opType)
  have lower : ((Identifier.sanitize opType).map Char.toLower).toList.all Identifier.isPart =
      true := by
    rw [List.all_eq_true] at letters
    rw [String.toList_map, List.all_eq_true, List.forall_mem_map]
    exact fun c member => Identifier.isPart_toLower (letters c member)
  have digits : (String.ofList (paddedDigits 3 id)).toList.all Identifier.isPart = true := by
    rw [String.toList_ofList, List.all_eq_true]
    exact fun c member => Identifier.isPart_of_isDigit (paddedDigits_isDigit 3 id c member)
  apply Identifier.isIdentifier_append _ digits
  apply Identifier.isIdentifier_append _ (by decide)
  exact Identifier.isIdentifier_append (by decide) lower

/-! ### Steps and their instances -/

namespace InstanceTable

/-- The steps that are assigned an instance, ascending. -/
def stepsOf (table : InstanceTable) (id : Nat) : List Nat :=
  (List.range table.assigned.length).filter fun step => table.assigned[step]? = some id

theorem mem_stepsOf {table : InstanceTable} {id step : Nat} :
    step ∈ table.stepsOf id ↔ table.assigned[step]? = some id := by
  unfold stepsOf
  rw [List.mem_filter, List.mem_range, decide_eq_true_eq]
  constructor
  · exact And.right
  · intro assigned
    exact ⟨(List.getElem?_eq_some_iff.mp assigned).1, assigned⟩

theorem stepsOf_ascending (table : InstanceTable) (id : Nat) :
    (table.stepsOf id).Pairwise (· < ·) :=
  List.pairwise_lt_range.filter _

/-- One more assignment adds the new step to the steps of its instance. -/
theorem stepsOf_append {before after : InstanceTable} {new : Nat}
    (grown : after.assigned = before.assigned ++ [new]) (id : Nat) :
    after.stepsOf id =
      before.stepsOf id ++ if new = id then [before.assigned.length] else [] := by
  unfold stepsOf
  rw [grown, List.length_append, List.length_singleton, List.range_succ, List.filter_append]
  congr 1
  · apply List.filter_congr
    intro step inside
    rw [List.getElem?_append_left (List.mem_range.mp inside)]
  · rw [List.filter_singleton, List.getElem?_concat_length]
    by_cases same : new = id <;> simp [same]

/-- Instances are named after their numbers and have all steps that are assigned them. A step is
assigned an instance only after all instances before that one have been assigned. -/
structure Accounts (table : InstanceTable) : Prop where
  symbol : ∀ (id : Nat) (shared : Instance), table.instances[id]? = some shared →
    shared.symbol = instanceName shared.key.opType id
  occurrences : ∀ (id : Nat) (shared : Instance), table.instances[id]? = some shared →
    shared.occurrences = table.stepsOf id
  used : ∀ id < table.instances.length, id ∈ table.assigned
  ordered : ∀ step id : Nat, table.assigned[step]? = some id →
    ∀ smaller < id, ∃ before < step, table.assigned[before]? = some smaller

theorem accounts_empty : Accounts {} where
  symbol id shared found := by simp at found
  occurrences id shared found := by simp at found
  used id inside := by simp at inside
  ordered step id assigned := by simp at assigned

/-- A new step may be assigned any instance before which all others have been assigned. -/
theorem Accounts.ordered_append {before after : InstanceTable} {new : Nat}
    (accounts : before.Accounts) (grown : after.assigned = before.assigned ++ [new])
    (known : ∀ smaller < new, smaller ∈ before.assigned) :
    ∀ step id : Nat, after.assigned[step]? = some id →
      ∀ smaller < id, ∃ earlier < step, after.assigned[earlier]? = some smaller := by
  have kept (step id : Nat) (assigned : before.assigned[step]? = some id) :
      after.assigned[step]? = some id := by
    rw [grown, List.getElem?_append_left (List.getElem?_eq_some_iff.mp assigned).1]
    exact assigned
  intro step id assigned smaller less
  rw [grown, List.getElem?_append] at assigned
  by_cases inside : step < before.assigned.length
  · rw [if_pos inside] at assigned
    have ⟨earlier, sooner, found⟩ := accounts.ordered step id assigned smaller less
    exact ⟨earlier, sooner, kept _ _ found⟩
  · rw [if_neg inside, List.getElem?_singleton] at assigned
    split at assigned
    · rw [Option.some.inj assigned] at known
      have ⟨earlier, found⟩ := List.mem_iff_getElem?.mp (known smaller less)
      have sooner := (List.getElem?_eq_some_iff.mp found).1
      exact ⟨earlier, by omega, kept _ _ found⟩
    · cases assigned

theorem Accounts.addOccurrence {table : InstanceTable} (accounts : table.Accounts) {id : Nat}
    (inside : id < table.instances.length) :
    (table.addOccurrence table.assigned.length id).Accounts := by
  have grown : (table.addOccurrence table.assigned.length id).assigned = table.assigned ++ [id] :=
    rfl
  -- An instance keeps its number and its name; only the one that is assigned gets a step.
  have origin (place : Nat) (shared : Instance)
      (found : (table.addOccurrence table.assigned.length id).instances[place]? = some shared) :
      ∃ old, table.instances[place]? = some old ∧ shared.symbol = old.symbol ∧
        shared.key = old.key ∧ shared.occurrences =
          old.occurrences ++ if id = place then [table.assigned.length] else [] := by
    unfold InstanceTable.addOccurrence at found
    rw [List.getElem?_modify] at found
    have ⟨old, present, changed⟩ := Option.map_eq_some_iff.mp found
    refine ⟨old, present, ?_⟩
    rw [← changed]
    by_cases same : id = place <;> simp [same]
  refine ⟨?_, ?_, ?_, accounts.ordered_append grown ?_⟩
  · intro place shared found
    have ⟨old, present, symbol, key, _⟩ := origin place shared found
    rw [symbol, key]
    exact accounts.symbol place old present
  · intro place shared found
    have ⟨old, present, _, _, steps⟩ := origin place shared found
    rw [steps, accounts.occurrences place old present, stepsOf_append grown]
  · intro place bound
    unfold InstanceTable.addOccurrence at bound
    rw [List.length_modify] at bound
    rw [grown]
    exact List.mem_append.mpr (.inl (accounts.used place bound))
  · intro smaller less
    exact accounts.used smaller (Nat.lt_trans less inside)

theorem Accounts.add {catalog : Catalog} {table : InstanceTable} (accounts : table.Accounts)
    (serves : table.Serves catalog table.assigned.length) (key : InstanceKey) :
    (table.add table.assigned.length key).Accounts := by
  unfold InstanceTable.add
  split
  next id found =>
    exact accounts.addOccurrence (List.findIdx?_eq_some_iff_getElem.mp found).1
  · have fresh : table.instances.length ∉ table.assigned :=
      fun member => Nat.lt_irrefl _ (serves.assigned _ member)
    have last (place : Nat) (shared : Instance)
        (found : (table.instances ++ [⟨table.instances.length,
          instanceName key.opType table.instances.length, key,
          [table.assigned.length]⟩])[place]? = some shared) :
        table.instances[place]? = some shared ∨ place = table.instances.length ∧
          shared = ⟨place, instanceName key.opType place, key, [table.assigned.length]⟩ := by
      rw [List.getElem?_append] at found
      by_cases inside : place < table.instances.length
      · rw [if_pos inside] at found
        exact .inl found
      · rw [if_neg inside, List.getElem?_singleton] at found
        split at found
        · have atEnd : place = table.instances.length := by omega
          rw [← atEnd] at found
          exact .inr ⟨atEnd, (Option.some.inj found).symm⟩
        · cases found
    refine ⟨?_, ?_, ?_, accounts.ordered_append rfl accounts.used⟩
    · intro place shared found
      rcases last place shared found with old | ⟨_, new⟩
      · exact accounts.symbol place shared old
      · rw [new]
    · intro place shared found
      rw [stepsOf_append rfl]
      rcases last place shared found with old | ⟨atEnd, new⟩
      · have inside := (List.getElem?_eq_some_iff.mp old).1
        have unlike : table.instances.length ≠ place := by omega
        rw [accounts.occurrences place shared old, if_neg unlike, List.append_nil]
      · have nothing : table.stepsOf place = [] := by
          rw [List.eq_nil_iff_forall_not_mem, atEnd]
          exact fun step member => fresh (List.mem_of_getElem? (mem_stepsOf.mp member))
        rw [new, nothing, if_pos atEnd.symm]
        rfl
    · intro place bound
      rw [List.length_append, List.length_singleton] at bound
      by_cases inside : place < table.instances.length
      · exact List.mem_append.mpr (.inl (accounts.used place inside))
      · have atEnd : place = table.instances.length := by omega
        exact List.mem_append.mpr (.inr (List.mem_singleton.mpr atEnd))

end InstanceTable

namespace Graph

variable {graph : Graph} {catalog : Catalog} {table : InstanceTable}

theorem shareFrom_accounts {operators : List Operator} {step : Nat}
    {before after : InstanceTable} (accounts : before.Accounts)
    (serves : before.Serves catalog step)
    (success : graph.shareFrom catalog step operators before = .ok after) : after.Accounts := by
  induction operators generalizing step before with
  | nil =>
    cases success
    exact accounts
  | cons operator rest ih =>
    rw [shareFrom_cons] at success
    have ⟨key, keyed, later⟩ := bind_eq_ok.mp success
    have ⟨handler, found, _, same, _⟩ := instanceKey_eq_ok keyed
    have handled : (catalog.get? key.opType).isSome := by
      rw [same, found]
      rfl
    have here : before.assigned.length = step := serves.length
    have next := accounts.add (here ▸ serves) key
    rw [here] at next
    exact ih next (serves.add step handled) later

theorem shareInstances_accounts (shared : graph.shareInstances catalog = .ok table) :
    table.Accounts :=
  shareFrom_accounts InstanceTable.accounts_empty (InstanceTable.serves_empty catalog) shared

end Graph

/-! ### The partition -/

namespace InstanceTable

variable {catalog : Catalog} {steps : Nat} {table : InstanceTable}

/-- The instances divide the first `steps` steps among themselves. -/
structure Partitions (steps : Nat) (table : InstanceTable) : Prop where
  ids : ∀ (place : Nat) (shared : Instance), table.instances[place]? = some shared →
    shared.id = place
  /-- Instances stand in the order of their first occurrences. -/
  firsts : table.instances.Pairwise fun earlier later =>
    ∃ first second, earlier.occurrences.head? = some first ∧
      later.occurrences.head? = some second ∧ first < second
  /-- A step is an occurrence of the instance that its operator evaluates, and of no other. -/
  own : ∀ step < steps, ∃ shared ∈ table.instances, table.instanceOf? step = some shared ∧
    ∀ other ∈ table.instances, step ∈ other.occurrences ↔ other.id = shared.id
  within : ∀ shared ∈ table.instances, ∀ step ∈ shared.occurrences, step < steps
  occurs : ∀ shared ∈ table.instances, shared.occurrences ≠ []
  ascending : ∀ shared ∈ table.instances, shared.occurrences.Pairwise (· < ·)
  outside : ∀ index, steps ≤ index → table.instanceOf? index = none
  evaluations : (table.instances.map fun shared => shared.occurrences.length).sum = steps
  distinct : (table.instances.map Instance.symbol).Nodup
  identifiers : ∀ shared ∈ table.instances, Identifier.isIdentifier shared.symbol = true

theorem Accounts.mem_occurrences_iff (accounts : table.Accounts) {id step : Nat}
    {shared : Instance} (found : table.instances[id]? = some shared) :
    step ∈ shared.occurrences ↔ table.assigned[step]? = some id := by
  rw [accounts.occurrences id shared found]
  exact mem_stepsOf

theorem Accounts.occurrences_ne_nil (accounts : table.Accounts) {shared : Instance}
    (member : shared ∈ table.instances) : shared.occurrences ≠ [] := by
  have ⟨id, found⟩ := List.mem_iff_getElem?.mp member
  have inside := (List.getElem?_eq_some_iff.mp found).1
  have ⟨step, assigned⟩ := List.mem_iff_getElem?.mp (accounts.used id inside)
  exact List.ne_nil_of_mem ((accounts.mem_occurrences_iff found).mpr assigned)

theorem Accounts.ascending (accounts : table.Accounts) {shared : Instance}
    (member : shared ∈ table.instances) : shared.occurrences.Pairwise (· < ·) := by
  have ⟨id, found⟩ := List.mem_iff_getElem?.mp member
  rw [accounts.occurrences id shared found]
  exact table.stepsOf_ascending id

/-- An instance first occurs before all those behind it. -/
theorem Accounts.first_lt (accounts : table.Accounts) {i j : Nat} {earlier later : Instance}
    (isEarlier : table.instances[i]? = some earlier) (isLater : table.instances[j]? = some later)
    (less : i < j) :
    ∃ first second, earlier.occurrences.head? = some first ∧
      later.occurrences.head? = some second ∧ first < second := by
  have ⟨second, others, whole⟩ :=
    List.exists_cons_of_ne_nil (accounts.occurrences_ne_nil (List.mem_of_getElem? isLater))
  have assigned := (accounts.mem_occurrences_iff isLater).mp (whole ▸ List.mem_cons_self ..)
  have ⟨before, sooner, found⟩ := accounts.ordered second j assigned i less
  have occurs := (accounts.mem_occurrences_iff isEarlier).mpr found
  have ascending := accounts.ascending (List.mem_of_getElem? isEarlier)
  cases starts : earlier.occurrences with
  | nil =>
    rw [starts] at occurs
    cases occurs
  | cons first rest =>
    rw [starts] at occurs ascending
    refine ⟨first, second, rfl, by rw [whole]; rfl, ?_⟩
    rcases List.mem_cons.mp occurs with same | after
    · omega
    · have least := (List.pairwise_cons.mp ascending).1 before after
      omega

/-- Together the instances occur at every step, at each of them once. -/
theorem Accounts.occurrences_perm (accounts : table.Accounts)
    (serves : table.Serves catalog steps) :
    (table.instances.flatMap Instance.occurrences).Perm (List.range steps) := by
  have apart : table.instances.Pairwise (Function.onFun List.Disjoint Instance.occurrences) := by
    rw [List.pairwise_iff_getElem]
    intro i j insideLeft insideRight less step left right
    have first := (accounts.mem_occurrences_iff (List.getElem?_eq_getElem insideLeft)).mp left
    have second := (accounts.mem_occurrences_iff (List.getElem?_eq_getElem insideRight)).mp right
    have same : i = j := Option.some.inj (first.symm.trans second)
    omega
  have distinct : (table.instances.flatMap Instance.occurrences).Nodup := by
    rw [List.nodup_flatMap]
    exact ⟨fun shared member => (accounts.ascending member).imp Nat.ne_of_lt, apart⟩
  rw [List.perm_ext_iff_of_nodup distinct List.nodup_range]
  intro step
  rw [List.mem_flatMap, List.mem_range, ← serves.length]
  constructor
  · intro ⟨shared, member, occurs⟩
    have ⟨id, found⟩ := List.mem_iff_getElem?.mp member
    have assigned := (accounts.mem_occurrences_iff found).mp occurs
    exact (List.getElem?_eq_some_iff.mp assigned).1
  · intro inside
    have bound := serves.assigned _ (List.getElem_mem inside)
    have found := List.getElem?_eq_getElem bound
    exact ⟨_, List.mem_of_getElem? found,
      (accounts.mem_occurrences_iff found).mpr (List.getElem?_eq_getElem inside)⟩

/-- The numbers keep the names apart, whatever the operator types are. -/
theorem Accounts.symbols_nodup (accounts : table.Accounts) :
    (table.instances.map Instance.symbol).Nodup := by
  apply List.pairwise_map.mpr
  rw [List.pairwise_iff_getElem]
  intro i j insideLeft insideRight less same
  rw [accounts.symbol i _ (List.getElem?_eq_getElem insideLeft),
    accounts.symbol j _ (List.getElem?_eq_getElem insideRight)] at same
  have equal := id_eq_of_instanceName_eq same
  omega

theorem Accounts.isIdentifier (accounts : table.Accounts) {shared : Instance}
    (member : shared ∈ table.instances) : Identifier.isIdentifier shared.symbol = true := by
  have ⟨id, found⟩ := List.mem_iff_getElem?.mp member
  rw [accounts.symbol id shared found]
  exact isIdentifier_instanceName _ id

theorem Accounts.partitions (accounts : table.Accounts) (serves : table.Serves catalog steps) :
    table.Partitions steps where
  ids := serves.ids
  firsts := by
    rw [List.pairwise_iff_getElem]
    intro i j insideLeft insideRight less
    exact accounts.first_lt (List.getElem?_eq_getElem insideLeft)
      (List.getElem?_eq_getElem insideRight) less
  own := by
    intro step inside
    have ⟨shared, isOwn, found⟩ := serves.instanceOf? inside
    refine ⟨shared, List.mem_of_getElem? found, isOwn, ?_⟩
    have bound : step < table.assigned.length := serves.length ▸ inside
    have assigned : table.assigned[step]? = some shared.id := by
      have ⟨id, isAssigned, present⟩ := Option.bind_eq_some_iff.mp isOwn
      rw [isAssigned, serves.ids id shared present]
    intro other member
    have ⟨id, present⟩ := List.mem_iff_getElem?.mp member
    rw [accounts.mem_occurrences_iff present, assigned, serves.ids id other present]
    exact ⟨fun same => (Option.some.inj same).symm, fun same => same ▸ rfl⟩
  within := by
    intro shared member step occurs
    have listed : step ∈ table.instances.flatMap Instance.occurrences :=
      List.mem_flatMap.mpr ⟨shared, member, occurs⟩
    exact List.mem_range.mp ((accounts.occurrences_perm serves).mem_iff.mp listed)
  occurs _ member := accounts.occurrences_ne_nil member
  ascending _ member := accounts.ascending member
  outside := by
    intro index beyond
    have nothing : table.assigned[index]? = none := by
      rw [List.getElem?_eq_none_iff, serves.length]
      exact beyond
    unfold InstanceTable.instanceOf?
    rw [nothing]
    rfl
  evaluations := by
    have lengths := (accounts.occurrences_perm serves).length_eq
    rwa [List.length_flatMap, List.length_range] at lengths
  distinct := accounts.symbols_nodup
  identifiers _ member := accounts.isIdentifier member

end InstanceTable

namespace Graph

/-- The table of instances partitions an execution that stops after the first `count` operators:
every step is an occurrence of the instance that its operator evaluates and of no other, instances
are numbered in the order of their first occurrences, and their names are different identifiers. -/
theorem shareInstances_partitions (graph : Graph) (count : Nat) (catalog : Catalog)
    (table : InstanceTable) (shared : (graph.truncate count).shareInstances catalog = .ok table) :
    table.Partitions (graph.truncate count).operators.length :=
  (shareInstances_accounts shared).partitions (shareInstances_eq_ok shared)

/-- Two of three operators are executed; they share an instance, and the third has none. -/
theorem reshapes_partitioned :
    ∃ table, (reshapes.truncate 2).shareInstances .standard = .ok table ∧ table.Partitions 2 ∧
      table.instances.length = 1 ∧ table.instanceOf? 2 = none := by
  refine ⟨_, rfl, ?_⟩
  have partitions := shareInstances_partitions reshapes 2 .standard _ rfl
  exact ⟨partitions, by decide +kernel, partitions.outside 2 (Nat.le_refl 2)⟩

end Graph

end TensorArena
