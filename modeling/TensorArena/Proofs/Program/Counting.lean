import TensorArena.Proofs.Lifetime.Recorded
import TensorArena.Proofs.Program.Registry

/-!
# Counting the readers of a running program

A registered tensor holds one unit for every reader that has yet to run, and one more if it is an
output of the graph. It is released when its live interval is over.
-/

set_option autoImplicit false

namespace TensorArena

/-- The registration of a tensor when the steps before `clock` have run. -/
def Lifetime.registrationAt (lifetime : Lifetime) (storage : Storage) (clock : Nat) :
    Option Registration :=
  if lifetime.interval.stop ≤ clock then none
  else some ⟨lifetime.name, storage, lifetime.countAt clock⟩

/-- The tensor is given up by the steps before `clock`. -/
def Lifetimes.isOver (lifetimes : Lifetimes) (clock : Nat) (name : String) : Bool :=
  (lifetimes.get? name).any fun lifetime => lifetime.interval.stop ≤ clock

theorem Graph.Recorded.isOver_eq {graph : Graph} {lifetimes : Lifetimes} {plan : Plan}
    (recorded : graph.Recorded lifetimes plan) {lifetime : Lifetime}
    (member : lifetime ∈ lifetimes.tensors) (clock : Nat) :
    lifetimes.isOver clock lifetime.name = decide (lifetime.interval.stop ≤ clock) := by
  rw [Lifetimes.isOver, recorded.exact.get?_eq_some_iff.mpr ⟨member, rfl⟩]
  rfl

namespace Context

variable {World : Type}

/-- Every tensor is registered as its stage demands, and no other name is registered. -/
structure Tracks (lifetimes : Lifetimes) (plan : Plan) (stage : Lifetime → Option Nat)
    (context : Context World) : Prop where
  distinct : (context.tensors.map Registration.name).Nodup
  known : ∀ registration ∈ context.tensors,
    ∃ lifetime ∈ lifetimes.tensors, lifetime.name = registration.name
  counts : ∀ lifetime ∈ lifetimes.tensors, ∀ entry, plan.entry? lifetime.name = some entry →
    context.registration? lifetime.name =
      (stage lifetime).bind (lifetime.registrationAt entry.storage)

namespace Tracks

variable {graph : Graph} {lifetimes : Lifetimes} {plan : Plan}
  {stage : Lifetime → Option Nat} {context after : Context World} {lifetime : Lifetime}

theorem congr (tracks : context.Tracks lifetimes plan stage) {other : Lifetime → Option Nat}
    (same : ∀ lifetime ∈ lifetimes.tensors, ∀ storage,
      (stage lifetime).bind (lifetime.registrationAt storage) =
        (other lifetime).bind (lifetime.registrationAt storage)) :
    context.Tracks lifetimes plan other :=
  { tracks with
    counts := fun lifetime member entry found =>
      (tracks.counts lifetime member entry found).trans (same lifetime member entry.storage) }

/-- The registrations are all that counts. -/
theorem of_eq (tracks : context.Tracks lifetimes plan stage)
    (same : after.tensors = context.tensors) : after.Tracks lifetimes plan stage := by
  obtain ⟨_, queue, phase, events, world⟩ := after
  subst same
  exact ⟨tracks.distinct, tracks.known, tracks.counts⟩

/-- Only one tensor moves to another stage. -/
theorem update (recorded : graph.Recorded lifetimes plan)
    (tracks : context.Tracks lifetimes plan stage) (member : lifetime ∈ lifetimes.tensors)
    {reached : Option Nat} (distinct : (after.tensors.map Registration.name).Nodup)
    (known : ∀ name ∈ after.tensors.map Registration.name,
      name = lifetime.name ∨ name ∈ context.tensors.map Registration.name)
    (moved : ∀ entry, plan.entry? lifetime.name = some entry →
      after.registration? lifetime.name = reached.bind (lifetime.registrationAt entry.storage))
    (others : ∀ name, name ≠ lifetime.name →
      after.registration? name = context.registration? name) :
    after.Tracks lifetimes plan fun other =>
      if other.name = lifetime.name then reached else stage other := by
  refine ⟨distinct, ?_, ?_⟩
  · intro registration listed
    rcases known _ (List.mem_map_of_mem listed) with same | before
    · exact ⟨lifetime, member, same.symm⟩
    · obtain ⟨old, listed, same⟩ := List.mem_map.mp before
      rw [← same]
      exact tracks.known old listed
  · intro other listed entry found
    by_cases same : other.name = lifetime.name
    · obtain rfl := recorded.eq_of_name_eq listed member same
      rw [if_pos rfl]
      exact moved entry found
    · rw [if_neg same, others _ same]
      exact tracks.counts other listed entry found

theorem registration? (recorded : graph.Recorded lifetimes plan)
    (tracks : context.Tracks lifetimes plan stage) (member : lifetime ∈ lifetimes.tensors)
    {clock : Nat} (current : stage lifetime = some clock)
    (unfinished : clock < lifetime.interval.stop) :
    ∃ entry, plan.entry? lifetime.name = some entry ∧
      context.registration? lifetime.name =
        some ⟨lifetime.name, entry.storage, lifetime.countAt clock⟩ := by
  obtain ⟨entry, _, found, _⟩ := recorded.entry member
  refine ⟨entry, found, ?_⟩
  rw [tracks.counts lifetime member entry found, current, Option.bind_some,
    Lifetime.registrationAt, if_neg (Nat.not_le.mpr unfinished)]

/-- What is registered is live, in the slot that the plan has for it. -/
theorem live_of_mem (recorded : graph.Recorded lifetimes plan)
    (tracks : context.Tracks lifetimes plan stage) {registration : Registration}
    (listed : registration ∈ context.tensors) :
    ∃ lifetime ∈ lifetimes.tensors, lifetime.name = registration.name ∧
      ∃ clock, stage lifetime = some clock ∧ clock < lifetime.interval.stop ∧
        ∃ entry, plan.entry? lifetime.name = some entry ∧
          registration.storage = entry.storage := by
  obtain ⟨lifetime, member, named⟩ := tracks.known registration listed
  obtain ⟨entry, _, isEntry, _⟩ := recorded.entry member
  have current := registration?_of_mem tracks.distinct listed
  rw [← named, tracks.counts lifetime member entry isEntry] at current
  obtain ⟨clock, reached, registered⟩ := Option.bind_eq_some_iff.mp current
  unfold Lifetime.registrationAt at registered
  split at registered
  · cases registered
  · rename_i unfinished
    refine ⟨lifetime, member, named, clock, reached, Nat.lt_of_not_le unfinished, entry, isEntry,
      ?_⟩
    rw [← Option.some.inj registered]

/-! ### Single calls -/

theorem release (recorded : graph.Recorded lifetimes plan)
    (tracks : context.Tracks lifetimes plan stage) (member : lifetime ∈ lifetimes.tensors)
    {next : Nat} (expired : lifetime.interval.stop ≤ next) :
    (context.release lifetime.name).Tracks lifetimes plan fun other =>
      if other.name = lifetime.name then some next else stage other := by
  have names := context.release_names_sublist lifetime.name
  refine tracks.update recorded member (tracks.distinct.sublist names)
    (fun name listed => .inr (names.subset listed)) ?_ ?_
  · intro entry _
    rw [registration?_release, if_pos rfl, Option.bind_some, Lifetime.registrationAt,
      if_pos expired]
  · intro name unlike
    rw [registration?_release, if_neg unlike]

/-- A unit is taken from a tensor, which is released if this was the last one. -/
theorem decrement (recorded : graph.Recorded lifetimes plan)
    (tracks : context.Tracks lifetimes plan stage) (member : lifetime ∈ lifetimes.tensors)
    {clock next left : Nat} (current : stage lifetime = some clock)
    (unfinished : clock < lifetime.interval.stop) (count : lifetime.countAt clock = left + 1)
    (expired : left = 0 ↔ lifetime.interval.stop ≤ next)
    (kept : left ≠ 0 → lifetime.countAt next = left) :
    ∃ after, context.decrement lifetime.name = (.ok (), after) ∧
      context.Logs (if lifetime.interval.stop ≤ next then [.released lifetime.name] else []) after ∧
      after.Tracks lifetimes plan fun other =>
        if other.name = lifetime.name then some next else stage other := by
  obtain ⟨entry, isEntry, found⟩ := tracks.registration? recorded member current unfinished
  have decremented := decrement_of_registration? found count
  by_cases last : left = 0
  · rw [if_pos last] at decremented
    refine ⟨_, decremented, ?_, tracks.release recorded member (expired.mp last)⟩
    rw [if_pos (expired.mp last)]
    exact context.release_eq found
  · rw [if_neg last] at decremented
    refine ⟨_, decremented, ?_, ?_⟩
    · rw [if_neg (fun ended => last (expired.mpr ended))]
      simp [Logs, setRefcount]
    · have names := context.setRefcount_names lifetime.name left
      refine tracks.update recorded member (names ▸ tracks.distinct)
        (fun name listed => .inr (names ▸ listed)) ?_ ?_
      · intro other isOther
        obtain rfl := Option.some.inj (isEntry.symm.trans isOther)
        rw [registration?_setRefcount, if_pos rfl, found, Option.map_some, Option.bind_some,
          Lifetime.registrationAt, if_neg (fun ended => last (expired.mpr ended)), kept last]
      · intro name unlike
        rw [registration?_setRefcount, if_neg unlike]

/-! ### The inputs of a step -/

/-- The stages within a step when it has settled the counts of some tensors; the tensors of the
steps before `next` are registered. -/
def settled (step next : Nat) (done : List String) (lifetime : Lifetime) : Option Nat :=
  if lifetime.name ∈ done then some (step + 1)
  else if lifetime.interval.start ≤ next then some step
  else none

theorem settled_append {step next : Nat} {done : List String} {name : String} :
    (fun other : Lifetime =>
      if other.name = name then some (step + 1) else settled step next done other) =
      settled step next (done ++ [name]) := by
  funext other
  by_cases same : other.name = name <;> simp [settled, same]

theorem decrementInputs (recorded : graph.Recorded lifetimes plan) {step next : Nat}
    (below : step < next) {names : List String} :
    ∀ {done : List String} {context : Context World},
      context.Tracks lifetimes plan (settled step next done) →
      (∀ name ∈ names, graph.Reads step name) → names.Nodup → (∀ name ∈ names, name ∉ done) →
      ∃ after, context.decrementAll names = (.ok (), after) ∧
        context.Logs ((names.filter (lifetimes.isOver (step + 1))).map .released) after ∧
        after.Tracks lifetimes plan (settled step next (done ++ names)) := by
  induction names with
  | nil =>
    intro done context tracks _ _ _
    refine ⟨context, rfl, .refl context, ?_⟩
    rwa [List.append_nil]
  | cons name rest ih =>
    intro done context tracks reads distinct fresh
    rw [List.nodup_cons] at distinct
    have read := reads name (by simp)
    obtain ⟨lifetime, member, rfl⟩ := recorded.exact.exists_of_reads read
    have known := recorded.known member
    have started := known.start_le_of_reads read
    have current : settled step next done lifetime = some step := by
      have registered : lifetime.interval.start ≤ next := by omega
      simp [settled, fresh _ (List.mem_cons_self ..), registered]
    have expired : lifetime.countAt (step + 1) = 0 ↔ lifetime.interval.stop ≤ step + 1 :=
      known.countAt_eq_zero_iff (by omega) read.lt_length
    obtain ⟨middle, taken, logged, moved⟩ := tracks.decrement recorded member current
      (known.lt_stop_of_reads read) (known.countAt_of_reads read) expired (fun _ => rfl)
    rw [settled_append] at moved
    obtain ⟨after, finished, rest_logged, reached⟩ := ih moved
      (fun name listed => reads name (by simp [listed])) distinct.2
      (fresh_append distinct.1 fresh)
    refine ⟨after, ?_, ?_, by simpa using reached⟩
    · unfold decrementAll
      rw [taken]
      exact finished
    · have both := logged.trans rest_logged
      rw [List.filter_cons, recorded.isOver_eq member]
      by_cases ended : lifetime.interval.stop ≤ step + 1
      · simpa [ended] using both
      · simpa [ended] using both

/-! ### The outputs of a step -/

theorem releaseOutputs (recorded : graph.Recorded lifetimes plan) {step next : Nat}
    (below : step < next) {names : List String} :
    ∀ {done : List String} {context : Context World},
      context.Tracks lifetimes plan (settled step next done) →
      (∀ name ∈ names, graph.Writes step name) → names.Nodup → (∀ name ∈ names, name ∉ done) →
      context.Logs ((names.filter (lifetimes.isOver (step + 1))).map .released)
          (context.releaseUnread names) ∧
        (context.releaseUnread names).Tracks lifetimes plan
          (settled step next (done ++ names)) := by
  induction names with
  | nil =>
    intro done context tracks _ _ _
    refine ⟨.refl context, ?_⟩
    rwa [List.append_nil]
  | cons name rest ih =>
    intro done context tracks writes distinct fresh
    rw [List.nodup_cons] at distinct
    have written := writes name (by simp)
    obtain ⟨lifetime, member, rfl⟩ := recorded.exact.exists_of_writes written
    have known := recorded.known member
    have started := known.start_of_writes written
    have current : settled step next done lifetime = some step := by
      have registered : lifetime.interval.start ≤ next := by omega
      simp [settled, fresh _ (List.mem_cons_self ..), registered]
    have unfinished : step < lifetime.interval.stop := by
      have := known.start_le_stop
      omega
    obtain ⟨entry, isEntry, found⟩ := tracks.registration? recorded member current unfinished
    have same := known.countAt_succ (known.not_reads_of_writes written)
    have expired : lifetime.countAt (step + 1) = 0 ↔ lifetime.interval.stop ≤ step + 1 :=
      known.countAt_eq_zero_iff (Nat.le_of_eq started) written.lt_length
    have others := fresh_append distinct.1 fresh
    have writesRest : ∀ name ∈ rest, graph.Writes step name :=
      fun name listed => writes name (by simp [listed])
    unfold releaseUnread at ih ⊢
    rw [List.foldl_cons, refcount?, found, Option.map_some, List.filter_cons,
      recorded.isOver_eq member]
    by_cases ended : lifetime.interval.stop ≤ step + 1
    · have zero : lifetime.countAt step = 0 := same ▸ expired.mpr ended
      have moved := tracks.release recorded member ended
      rw [settled_append] at moved
      obtain ⟨logged, reached⟩ := ih moved writesRest distinct.2 others
      have first : context.Logs [.released lifetime.name] (context.release lifetime.name) :=
        context.release_eq found
      rw [if_pos (congrArg some zero), if_pos (by simpa using ended)]
      exact ⟨first.trans logged, by simpa using reached⟩
    · have positive : lifetime.countAt step ≠ 0 := fun zero => ended (expired.mp (same.trans zero))
      have moved : context.Tracks lifetimes plan (settled step next (done ++ [lifetime.name])) := by
        rw [← settled_append]
        refine tracks.update recorded member tracks.distinct (fun _ listed => .inr listed) ?_
          (fun _ _ => rfl)
        intro other isOther
        obtain rfl := Option.some.inj (isEntry.symm.trans isOther)
        rw [found, Option.bind_some, Lifetime.registrationAt, if_neg ended, same]
      obtain ⟨logged, reached⟩ := ih moved writesRest distinct.2 others
      rw [if_neg (fun zero => positive (Option.some.inj zero)), if_neg (by simpa using ended)]
      exact ⟨logged, by simpa using reached⟩

/-- A step that has settled the counts of its operands is over. -/
theorem settle (recorded : graph.Recorded lifetimes plan) {step next : Nat}
    (below : step < next) {operator : Operator}
    (present : graph.operators[step]? = some operator)
    (tracks : context.Tracks lifetimes plan
      (settled step next (Context.distinct [] operator.inputs ++ operator.outputs))) :
    context.Tracks lifetimes plan (settled (step + 1) next []) := by
  refine tracks.congr fun lifetime member storage => ?_
  have known := recorded.known member
  have inside := (List.getElem?_eq_some_iff.mp present).1
  have operands : lifetime.name ∈ Context.distinct [] operator.inputs ++ operator.outputs ↔
      graph.Reads step lifetime.name ∨ graph.Writes step lifetime.name := by
    rw [List.mem_append, mem_distinct, Graph.reads_iff present, Graph.writes_iff present]
    simp
  unfold settled
  by_cases listed : graph.Reads step lifetime.name ∨ graph.Writes step lifetime.name
  · have registered : lifetime.interval.start ≤ next := by
      rcases listed with read | written
      · have := known.start_le_of_reads read
        omega
      · have := known.start_of_writes written
        omega
    simp [operands.mpr listed, registered]
  · rw [if_neg (mt operands.mp listed), if_neg List.not_mem_nil]
    obtain ⟨unread, unwritten⟩ := not_or.mp listed
    split
    · rw [Option.bind_some, Option.bind_some, Lifetime.registrationAt, Lifetime.registrationAt,
        known.countAt_succ unread]
      simp only [known.stop_le_succ_iff inside unread unwritten]
    · rfl

end Tracks

end Context

end TensorArena
