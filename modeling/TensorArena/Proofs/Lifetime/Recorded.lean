import TensorArena.Arena.Plan
import TensorArena.Proofs.Lifetime.Interval

/-!
# Recorded lifetimes

A plan records the lifetimes of a graph when it has one entry for each tensor, with its role, its
count and its interval. It may give the tensors any storage, so even two tensors that are live
together may share addresses.
-/

set_option autoImplicit false

namespace TensorArena

/-- The lifetimes are those of the graph, and the plan has one entry for each of them. -/
structure Graph.Recorded (graph : Graph) (lifetimes : Lifetimes) (plan : Plan) : Prop where
  exact : lifetimes.Exact graph
  names : (plan.entries.map PlanEntry.name).Nodup
  entry_of_mem : ∀ lifetime ∈ lifetimes.tensors, ∃ entry ∈ plan.entries,
    entry.name = lifetime.name ∧ entry.role = lifetime.role ∧
      entry.refcount = lifetime.refcount ∧ entry.interval = lifetime.interval
  lifetime_of_mem : ∀ entry ∈ plan.entries, ∃ lifetime ∈ lifetimes.tensors,
    lifetime.name = entry.name

/-- The plan has one entry for each lifetime, with its role, its count and its interval. -/
def Plan.Records (plan : Plan) (lifetimes : Lifetimes) : Prop :=
  (plan.entries.map fun entry => (entry.name, entry.role, entry.refcount, entry.interval)).Perm
    (lifetimes.tensors.map fun lifetime =>
      (lifetime.name, lifetime.role, lifetime.refcount, lifetime.interval))

theorem Plan.Records.recorded {graph : Graph} {lifetimes : Lifetimes} {plan : Plan}
    (records : plan.Records lifetimes) (exact : lifetimes.Exact graph) :
    graph.Recorded lifetimes plan where
  exact := exact
  names := by
    have names := records.map Prod.fst
    rw [List.map_map, List.map_map] at names
    exact names.nodup_iff.mpr exact.distinct_lifetimes
  entry_of_mem lifetime member := by
    obtain ⟨entry, listed, same⟩ :=
      List.mem_map.mp (records.mem_iff.mpr (List.mem_map_of_mem member))
    obtain ⟨name, rest⟩ := Prod.mk.inj same
    obtain ⟨role, rest⟩ := Prod.mk.inj rest
    exact ⟨entry, listed, name, role, Prod.mk.inj rest⟩
  lifetime_of_mem entry listed := by
    obtain ⟨lifetime, member, same⟩ :=
      List.mem_map.mp (records.mem_iff.mp (List.mem_map_of_mem listed))
    exact ⟨lifetime, member, (Prod.mk.inj same).1⟩

namespace Graph.Recorded

variable {graph : Graph} {lifetimes : Lifetimes} {plan : Plan}

theorem known (recorded : graph.Recorded lifetimes plan) {lifetime : Lifetime}
    (member : lifetime ∈ lifetimes.tensors) : lifetime.Exact graph :=
  recorded.exact.exact_of_mem member

theorem eq_of_name_eq (recorded : graph.Recorded lifetimes plan) {left right : Lifetime}
    (inLeft : left ∈ lifetimes.tensors) (inRight : right ∈ lifetimes.tensors)
    (same : left.name = right.name) : left = right :=
  TensorArena.eq_of_name_eq Lifetime.name recorded.exact.distinct_lifetimes inLeft inRight same

theorem entry?_eq_some_iff (recorded : graph.Recorded lifetimes plan) {name : String}
    {entry : PlanEntry} :
    plan.entry? name = some entry ↔ entry ∈ plan.entries ∧ entry.name = name := by
  have names : (plan.entries.reverse.map PlanEntry.name).Nodup := by
    rw [List.map_reverse, List.nodup_reverse]
    exact recorded.names
  unfold Plan.entry?
  rw [find?_named_iff PlanEntry.name names, List.mem_reverse]

/-- Every analysed tensor has an entry with its role, its count and its interval. -/
theorem entry (recorded : graph.Recorded lifetimes plan) {lifetime : Lifetime}
    (member : lifetime ∈ lifetimes.tensors) :
    ∃ entry ∈ plan.entries, plan.entry? lifetime.name = some entry ∧ entry.name = lifetime.name ∧
      entry.role = lifetime.role ∧ entry.refcount = lifetime.refcount ∧
      entry.interval = lifetime.interval := by
  obtain ⟨entry, listed, named, parts⟩ := recorded.entry_of_mem lifetime member
  exact ⟨entry, listed, recorded.entry?_eq_some_iff.mpr ⟨listed, named⟩, named, parts⟩

/-- Every entry belongs to an analysed tensor, whose role and interval it has. -/
theorem lifetime (recorded : graph.Recorded lifetimes plan) {entry : PlanEntry}
    (listed : entry ∈ plan.entries) :
    ∃ lifetime ∈ lifetimes.tensors, plan.entry? lifetime.name = some entry ∧
      entry.name = lifetime.name ∧ entry.role = lifetime.role ∧
      entry.interval = lifetime.interval := by
  obtain ⟨lifetime, member, named⟩ := recorded.lifetime_of_mem entry listed
  have isEntry := recorded.entry?_eq_some_iff.mpr ⟨listed, named.symm⟩
  obtain ⟨other, _, isOther, _, role, _, interval⟩ := recorded.entry member
  obtain rfl := Option.some.inj (isEntry.symm.trans isOther)
  exact ⟨lifetime, member, isEntry, named.symm, role, interval⟩

/-- The operands of a step are there when it runs. -/
theorem live (recorded : graph.Recorded lifetimes plan) {step : Nat} {name : String}
    (operand : graph.Reads step name ∨ graph.Writes step name) :
    ∃ lifetime ∈ lifetimes.tensors, lifetime.name = name ∧
      lifetime.interval.start ≤ step + 1 ∧ step < lifetime.interval.stop := by
  rcases operand with reads | writes
  · obtain ⟨lifetime, member, rfl⟩ := recorded.exact.exists_of_reads reads
    have known := recorded.known member
    exact ⟨lifetime, member, rfl, Nat.le_succ_of_le (known.start_le_of_reads reads),
      known.lt_stop_of_reads reads⟩
  · obtain ⟨lifetime, member, rfl⟩ := recorded.exact.exists_of_writes writes
    have known := recorded.known member
    have started := known.start_of_writes writes
    have := known.start_le_stop
    exact ⟨lifetime, member, rfl, Nat.le_of_eq started, by omega⟩

end Graph.Recorded

end TensorArena
