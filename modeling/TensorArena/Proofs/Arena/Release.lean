import TensorArena.Proofs.Arena.Ownership

/-!
# Releases and what takes over

A plan gives a slot back after the last step that uses its tensor, and never if the tensor is an
output of the graph. A later tensor that gets some of these bytes notes a release which is no
earlier, however often they have been split off and joined in between.
-/

set_option autoImplicit false

namespace TensorArena

/-- The last step that reads a tensor or, if none reads it, the step that writes it. -/
def Graph.LastUse (graph : Graph) (name : String) (step : Nat) : Prop :=
  (graph.Reads step name ∧ ∀ other, graph.Reads other name → other ≤ step) ∨
    ((∀ other, ¬ graph.Reads other name) ∧ graph.Writes step name)

/-- The live interval of a tensor that is no output ends with its last use. -/
theorem Lifetime.Exact.lastUse {graph : Graph} {lifetime : Lifetime}
    (exact : lifetime.Exact graph) (inner : lifetime.isOutput = false) :
    graph.LastUse lifetime.name (lifetime.interval.stop - 1) := by
  have positive := exact.stop_pos
  rcases exact.stop_eq inner with ⟨unread, stop⟩ | ⟨last, member, greatest, stop⟩
  · refine .inr ⟨?_, exact.writes_of_start (by omega)⟩
    intro other reads
    have := (exact.consumers other).mpr reads
    rw [unread] at this
    cases this
  · rw [stop, Nat.add_sub_cancel]
    refine .inl ⟨(exact.consumers last).mp member, ?_⟩
    intro other reads
    exact greatest other ((exact.consumers other).mpr reads)

namespace PlanEntry.Records

variable {graph : Graph} {options : ArenaOptions} {tensor : Tensor} {lifetime : Lifetime}
  {entry : PlanEntry}

theorem releasedAfter_of_output
    (records : entry.Records options tensor lifetime graph.operators.length)
    (exact : lifetime.Exact graph) (output : entry.name ∈ graph.outputs) :
    entry.releasedAfter = none := by
  rw [records.name] at output
  rw [records.releasedAfter, if_neg]
  rw [exact.stop_le_length_iff]
  exact not_not_intro output

theorem releasedAfter_of_inner
    (records : entry.Records options tensor lifetime graph.operators.length)
    (exact : lifetime.Exact graph) (inner : entry.name ∉ graph.outputs) :
    ∃ step, entry.releasedAfter = some step ∧ graph.LastUse entry.name step ∧
      step + 1 = entry.interval.stop := by
  rw [records.name] at inner ⊢
  refine ⟨lifetime.interval.stop - 1, ?_, exact.lastUse ?_, ?_⟩
  · rw [records.releasedAfter, if_pos (exact.stop_le_length_iff.mpr inner)]
  · rw [← Bool.not_eq_true, exact.isOutput_iff]
    exact inner
  · rw [records.interval]
    exact Nat.sub_add_cancel exact.stop_pos

/-- A slot is kept until its tensor has been there. -/
theorem start_le_of_releasedAfter {clock step : Nat}
    (records : entry.Records options tensor lifetime clock) (exact : lifetime.Exact graph)
    (released : entry.releasedAfter = some step) : entry.interval.start ≤ step + 1 := by
  have lasts := exact.start_le_stop
  rw [records.releasedAfter] at released
  rw [records.interval]
  split at released
  · have := Option.some.inj released
    omega
  · cases released

end PlanEntry.Records

namespace Plan.Fits

variable {graph : Graph} {lifetimes : Lifetimes} {options : ArenaOptions} {plan : Plan}

/-- The entries of a plan stand beside the lifetimes they repeat. -/
theorem forall₂_lifetimes (fits : plan.Fits graph lifetimes options)
    (exact : lifetimes.Exact graph) :
    List.Forall₂ (fun entry lifetime =>
      entry.name = lifetime.name ∧ entry.role = lifetime.role ∧
        entry.refcount = lifetime.refcount ∧ entry.interval = lifetime.interval)
      plan.entries lifetimes.tensors := by
  refine List.forall₂_iff_get.mpr ⟨fits.length.trans exact.tensors.length_eq, ?_⟩
  intro position inside bound
  obtain ⟨tensor, lifetime, declares, records⟩ :=
    fits.declares_of_entry exact (List.getElem?_eq_getElem inside)
  obtain rfl := Option.some.inj ((List.getElem?_eq_getElem bound).symm.trans declares.2)
  exact ⟨records.name, records.role, records.refcount, records.interval⟩

/-- A tensor that a step writes notes a release no earlier than that of any slot which it shares
bytes with and which was given back before the step. -/
theorem noted_of_overlap (fits : plan.Fits graph lifetimes options)
    (exact : lifetimes.Exact graph) {entry other : PlanEntry} (member : entry ∈ plan.entries)
    (isOther : other ∈ plan.entries) {step released : Nat}
    (writes : graph.Writes step entry.name) (given : other.releasedAfter = some released)
    (before : released < step) (overlap : entry.storage.overlaps other.storage = true) :
    ∃ available, entry.availableAfter = some available ∧ released ≤ available ∧
      available < step := by
  obtain ⟨lifetime, listed, tensor, records⟩ := fits.lifetime_of_mem exact member
  obtain ⟨lifetimeOther, listedOther, tensorOther, recordsOther⟩ :=
    fits.lifetime_of_mem exact isOther
  have known := exact.exact_of_mem listed
  rw [records.name] at writes
  have started := known.start_of_writes writes
  rw [← records.interval] at started
  have startedOther :=
    recordsOther.start_le_of_releasedAfter (exact.exact_of_mem listedOther) given
  have unlike : entry ≠ other := by
    rintro rfl
    omega
  obtain ⟨i, j, apart, found, foundOther⟩ := exists_positions_of_ne member isOther unlike
  obtain ⟨address, covers, covered⟩ := (Storage.overlaps_iff _ _).mp overlap
  rcases fits.apart i j entry other apart found foundOther address covers covered with
    ⟨last, available, isLast, noted, order, after⟩ | succeeds
  · obtain rfl := Option.some.inj (given.symm.trans isLast)
    exact ⟨available, noted, order, by omega⟩
  · -- The other one would have been placed after the release of the entry, thus after `step`.
    have := fits.stop_lt_start exact member succeeds
    have := known.start_le_stop
    rw [← records.interval] at this
    omega

/-- What is placed before the first step takes over from nobody. -/
theorem availableAfter_of_entry (fits : plan.Fits graph lifetimes options)
    (exact : lifetimes.Exact graph) {entry : PlanEntry} (member : entry ∈ plan.entries)
    (early : entry.role ≠ .intermediate) : entry.availableAfter = none := by
  obtain ⟨lifetime, listed, tensor, records⟩ := fits.lifetime_of_mem exact member
  rw [records.role] at early
  have started := (exact.exact_of_mem listed).start_eq_zero_iff.mpr early
  rw [← records.interval] at started
  cases noted : entry.availableAfter with
  | none => rfl
  | some step =>
    have := (fits.noted entry member step noted).1
    omega

end Plan.Fits

/-- A slot is given back exactly at the end of the live interval. The entries of a plan stand in the
order of the tensors and repeat what the analysis found, and each is found by its name. An output
of the graph is never given back. Any other tensor is given back after the last step that reads it
or, if none does, after the one that writes it. -/
theorem Graph.plan_releases_after_last_use (graph : Graph) (count : Nat) (options : ArenaOptions)
    (lifetimes : Lifetimes) (plan : Plan)
    (analysed : (graph.truncate count).lifetimes = .ok lifetimes)
    (planned : (graph.truncate count).plan lifetimes options = .ok plan) :
    plan.entries.map PlanEntry.name = graph.tensors.map Tensor.name ∧
      List.Forall₂ (fun entry lifetime =>
        entry.name = lifetime.name ∧ entry.role = lifetime.role ∧
          entry.refcount = lifetime.refcount ∧ entry.interval = lifetime.interval)
        plan.entries lifetimes.tensors ∧
      ∀ entry ∈ plan.entries,
        plan.entry? entry.name = some entry ∧
          (entry.name ∈ graph.outputs → entry.releasedAfter = none) ∧
          (entry.name ∉ graph.outputs → ∃ step, entry.releasedAfter = some step ∧
            (graph.truncate count).LastUse entry.name step ∧ step + 1 = entry.interval.stop) := by
  have exact := Graph.lifetimes_eq_ok analysed
  have fits := Graph.plan_eq_ok exact planned
  refine ⟨fits.names exact, fits.forall₂_lifetimes exact, ?_⟩
  intro entry member
  obtain ⟨lifetime, listed, tensor, records⟩ := fits.lifetime_of_mem exact member
  have known := exact.exact_of_mem listed
  exact ⟨(fits.entry?_eq_some_iff exact).mpr ⟨member, rfl⟩,
    records.releasedAfter_of_output known, records.releasedAfter_of_inner known⟩

/-- The last operator reads the operand it doubles as one consumer, and its result is kept. -/
theorem Graph.relay_releases_after_last_use :
    ∃ lifetimes plan operand result, (relay.truncate 3).lifetimes = .ok lifetimes ∧
      (relay.truncate 3).plan lifetimes {} = .ok plan ∧
      plan.entry? "t" = some operand ∧ plan.entry? "y" = some result ∧
      (∃ step, operand.releasedAfter = some step ∧ (relay.truncate 3).LastUse "t" step ∧
        step + 1 = 3) ∧
      result.releasedAfter = none :=
  ⟨_, _, _, _, rfl, rfl, rfl, rfl,
    ((plan_releases_after_last_use relay 3 {} _ _ rfl rfl).2.2 _ (by decide)).2.2 (by decide),
    ((plan_releases_after_last_use relay 3 {} _ _ rfl rfl).2.2 _ (by decide)).2.1 (by decide)⟩

/-- The release a slot notes is never too early. Let one tensor be written by a step, and let the
slot of another have been given back before that step. If the two slots share a byte, the first
notes a release that is no earlier than the one of the second, and that comes before the step. What
is placed before the first step notes no release. -/
theorem Graph.plan_notes_latest_release (graph : Graph) (count : Nat) (options : ArenaOptions)
    (lifetimes : Lifetimes) (plan : Plan)
    (analysed : (graph.truncate count).lifetimes = .ok lifetimes)
    (planned : (graph.truncate count).plan lifetimes options = .ok plan) :
    (∀ entry ∈ plan.entries, ∀ other ∈ plan.entries, ∀ step released,
      (graph.truncate count).Writes step entry.name → other.releasedAfter = some released →
      released < step → entry.storage.overlaps other.storage = true →
        ∃ available, entry.availableAfter = some available ∧ released ≤ available ∧
          available < step) ∧
      ∀ entry ∈ plan.entries, entry.role ≠ .intermediate → entry.availableAfter = none := by
  have exact := Graph.lifetimes_eq_ok analysed
  have fits := Graph.plan_eq_ok exact planned
  constructor
  · intro entry member other isOther step released writes given before overlap
    exact fits.noted_of_overlap exact member isOther writes given before overlap
  · intro entry member early
    exact fits.availableAfter_of_entry exact member early

/-- The second result takes over the slot of the input. -/
theorem Graph.relay_notes_latest_release :
    ∃ lifetimes plan input result, (relay.truncate 3).lifetimes = .ok lifetimes ∧
      (relay.truncate 3).plan lifetimes {} = .ok plan ∧
      plan.entry? "x" = some input ∧ plan.entry? "t" = some result ∧
      input.releasedAfter = some 0 ∧ result.storage.overlaps input.storage = true ∧
      (∃ available, result.availableAfter = some available ∧ 0 ≤ available ∧ available < 1) ∧
      input.availableAfter = none :=
  ⟨_, _, _, _, rfl, rfl, rfl, rfl, rfl, by decide,
    (plan_notes_latest_release relay 3 {} _ _ rfl rfl).1 _ (by decide) _ List.mem_cons_self 1 0
      ⟨_, rfl, by decide⟩ rfl (by decide) (by decide),
    (plan_notes_latest_release relay 3 {} _ _ rfl rfl).2 _ (by decide) (by decide)⟩

end TensorArena
