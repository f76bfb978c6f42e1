import TensorArena.Proofs.Program.Running

/-!
# Registering tensors

A tensor is registered unless it shares an address with one that is there already. Of a list of
tensors all are registered if none of them shares an address with another one that is then there;
otherwise one of them is refused.
-/

set_option autoImplicit false

namespace TensorArena

/-- The tensor is registered at the stages. -/
def Lifetime.Present (stage : Lifetime → Option Nat) (lifetime : Lifetime) : Prop :=
  ∃ clock, stage lifetime = some clock ∧ clock < lifetime.interval.stop

/-- The slots of two names share an address. -/
def Plan.Overlap (plan : Plan) (left right : String) : Prop :=
  ∃ leftEntry rightEntry, plan.entry? left = some leftEntry ∧
    plan.entry? right = some rightEntry ∧
    leftEntry.storage.overlaps rightEntry.storage = true

theorem Plan.Overlap.symm {plan : Plan} {left right : String} (overlap : plan.Overlap left right) :
    plan.Overlap right left := by
  obtain ⟨leftEntry, rightEntry, isLeft, isRight, shared⟩ := overlap
  refine ⟨rightEntry, leftEntry, isRight, isLeft, ?_⟩
  rw [Storage.overlaps_iff] at shared ⊢
  obtain ⟨address, covers, covered⟩ := shared
  exact ⟨address, covered, covers⟩

namespace Launch

variable {World : Type} {catalog : Catalog} {launch : Launch World} {execution : Execution World}
  {context : Context World} {done count : Nat} {stage : Lifetime → Option Nat}
  {lifetime left right : Lifetime} {entry : PlanEntry}

/-- Executes steps one after the other. -/
def runs (launch : Launch World) (execution : Execution World) (steps : List Step) :
    Except ExecutionError (Execution World) :=
  steps.foldlM (Execution.step launch.graph launch.plan launch.table launch.kernel) execution

theorem runs_append {middle : Execution World} {first : List Step}
    (before : launch.runs execution first = .ok middle) (second : List Step) :
    launch.runs execution (first ++ second) = launch.runs middle second := by
  unfold runs at before ⊢
  rw [List.foldlM_append, before]
  rfl

/-- The steps run up to a state as described. Only tensors that clash prevent it: then one of them
is refused, and without such tensors there is no failure. -/
def Registers (launch : Launch World) (execution : Execution World) (steps : List Step)
    (clash : Lifetime → Lifetime → Prop) (reaches : Execution World → Prop) : Prop :=
  (∃ after, launch.runs execution steps = .ok after ∧ reaches after ∧
    ∀ left right, ¬ clash left right) ∨
  ∃ left right, clash left right ∧
    launch.runs execution steps = .error (.context (.addressConflict left.name right.name))

namespace Registers

variable {first second steps : List Step} {clash other : Lifetime → Lifetime → Prop}
  {reaches ends : Execution World → Prop}

theorem of_ok {after : Execution World} (ran : launch.runs execution steps = .ok after)
    (reached : reaches after) : launch.Registers execution steps (fun _ _ => False) reaches :=
  .inl ⟨after, ran, reached, fun _ _ => id⟩

theorem imp (registers : launch.Registers execution steps clash reaches)
    (ended : ∀ after, reaches after → ends after) :
    launch.Registers execution steps clash ends :=
  registers.imp_left fun ⟨after, ran, reached, clear⟩ => ⟨after, ran, ended after reached, clear⟩

/-- The tensors that clash can be told by another sign. -/
theorem congr (registers : launch.Registers execution steps clash reaches)
    (clashes : ∀ left right, clash left right → other left right)
    (only : ∀ left right, other left right → ∃ left right, clash left right) :
    launch.Registers execution steps other reaches := by
  rcases registers with ⟨after, ran, reached, clear⟩ | ⟨left, right, found, refused⟩
  · refine .inl ⟨after, ran, reached, fun left right found => ?_⟩
    obtain ⟨left, right, earlier⟩ := only left right found
    exact clear left right earlier
  · exact .inr ⟨left, right, clashes left right found, refused⟩

theorem append (registers : launch.Registers execution first clash reaches)
    (next : ∀ middle, reaches middle → launch.Registers middle second other ends) :
    launch.Registers execution (first ++ second)
      (fun left right => clash left right ∨ other left right) ends := by
  rcases registers with ⟨middle, ran, reached, clear⟩ | ⟨left, right, found, refused⟩
  · have same := runs_append ran second
    rcases next middle reached with ⟨after, finished, ended, free⟩ | ⟨left, right, found, refused⟩
    · exact .inl ⟨after, same.trans finished, ended, fun left right => by
        simp [clear left right, free left right]⟩
    · exact .inr ⟨left, right, .inr found, same.trans refused⟩
  · refine .inr ⟨left, right, .inl found, ?_⟩
    unfold runs at refused ⊢
    rw [List.foldlM_append, refused]
    rfl

/-- Steps before that run in any case. -/
theorem prepend {middle : Execution World} (ran : launch.runs execution first = .ok middle)
    (registers : launch.Registers middle second clash reaches) :
    launch.Registers execution (first ++ second) clash reaches := by
  unfold Registers at registers ⊢
  rw [runs_append ran]
  exact registers

/-- Steps behind that run in any case. -/
theorem andThen (registers : launch.Registers execution first clash reaches)
    (next : ∀ middle, reaches middle →
      ∃ after, launch.runs middle second = .ok after ∧ ends after) :
    launch.Registers execution (first ++ second) clash ends := by
  have silent : ∀ middle, reaches middle →
      launch.Registers middle second (fun _ _ => False) ends := by
    intro middle reached
    obtain ⟨after, ran, ended⟩ := next middle reached
    exact .of_ok ran ended
  exact (registers.append silent).congr (fun _ _ found => found.elim id False.elim)
    fun left right found => ⟨left, right, .inl found⟩

theorem ok (registers : launch.Registers execution steps clash reaches)
    (clear : ∀ left right, ¬ clash left right) :
    ∃ after, launch.runs execution steps = .ok after ∧ reaches after := by
  rcases registers with ⟨after, ran, reached, _⟩ | ⟨left, right, found, _⟩
  · exact ⟨after, ran, reached⟩
  · exact absurd found (clear left right)

end Registers

/-- Two tensors are registered at the stages although they share an address. -/
structure Clash (launch : Launch World) (stage : Lifetime → Option Nat)
    (left right : Lifetime) : Prop where
  left_mem : left ∈ launch.lifetimes.tensors
  right_mem : right ∈ launch.lifetimes.tensors
  unlike : left.name ≠ right.name
  left_present : left.Present stage
  right_present : right.Present stage
  overlap : launch.plan.Overlap left.name right.name

theorem Clash.symm (clash : launch.Clash stage left right) : launch.Clash stage right left :=
  ⟨clash.right_mem, clash.left_mem, clash.unlike.symm, clash.right_present, clash.left_present,
    clash.overlap.symm⟩

theorem Clash.imp (clash : launch.Clash stage left right) {other : Lifetime → Option Nat}
    (leftPresent : left.Present stage → left.Present other)
    (rightPresent : right.Present stage → right.Present other) : launch.Clash other left right :=
  { clash with
    left_present := leftPresent clash.left_present
    right_present := rightPresent clash.right_present }

/-- The stages after some tensors have been registered. -/
def joined (done : Nat) (placed : List String) (stage : Lifetime → Option Nat)
    (lifetime : Lifetime) : Option Nat :=
  if lifetime.name ∈ placed then some done else stage lifetime

theorem joined_cons (done : Nat) (name : String) (rest : List String)
    (stage : Lifetime → Option Nat) :
    joined done rest (joined done [name] stage) = joined done (name :: rest) stage := by
  funext lifetime
  by_cases later : lifetime.name ∈ rest
  · simp [joined, later]
  · simp [joined, later]

/-- A tensor can be registered when the steps before `done` have run: it has not been registered
yet, and its live interval is still to come or has just begun. -/
structure Awaited (launch : Launch World) (done : Nat) (stage : Lifetime → Option Nat)
    (lifetime : Lifetime) : Prop where
  member : lifetime ∈ launch.lifetimes.tensors
  fresh : stage lifetime = none
  before : done ≤ lifetime.interval.start
  unfinished : done < lifetime.interval.stop

/-- Registering some tensors leaves those registered that were so before. -/
theorem present_joined (ready : launch.Ready catalog) {names : List String}
    (arriving : ∀ name ∈ names, ∃ lifetime, lifetime.name = name ∧
      launch.Awaited done stage lifetime)
    {other : Lifetime → Option Nat} (member : lifetime ∈ launch.lifetimes.tensors)
    (present : lifetime.Present other) : lifetime.Present (joined done names other) := by
  by_cases listed : lifetime.name ∈ names
  · obtain ⟨same, named, awaited⟩ := arriving lifetime.name listed
    obtain rfl := ready.recorded.eq_of_name_eq awaited.member member named
    exact ⟨done, by simp [joined, listed], awaited.unfinished⟩
  · obtain ⟨clock, current, live⟩ := present
    exact ⟨clock, by simp [joined, listed, current], live⟩

namespace Running

/-! ### One tensor -/

/-- Whatever stands in the way of a tensor is there already. -/
theorem clash_of_conflict? (ready : launch.Ready catalog)
    (running : launch.Running done count stage context)
    (awaited : launch.Awaited done stage lifetime)
    (isEntry : launch.plan.entry? lifetime.name = some entry) {name : String}
    (found : context.conflict? entry.storage = some name) :
    ∃ other, other.name = name ∧
      launch.Clash (joined done [lifetime.name] stage) lifetime other := by
  obtain ⟨registration, listed, named, overlap⟩ := Context.overlaps_of_conflict? found
  obtain ⟨other, inOther, sameName, clock, reached, live, otherEntry, isOther, stored⟩ :=
    running.tracks.live_of_mem ready.recorded listed
  have unlike : lifetime.name ≠ other.name := by
    intro same
    obtain rfl := ready.recorded.eq_of_name_eq awaited.member inOther same
    rw [awaited.fresh] at reached
    cases reached
  refine ⟨other, sameName.trans named, awaited.member, inOther, unlike,
    ⟨done, by simp [joined], awaited.unfinished⟩,
    ⟨clock, by simp [joined, unlike.symm, reached], live⟩, ?_⟩
  rw [stored] at overlap
  exact Plan.Overlap.symm ⟨otherEntry, entry, isOther, isEntry, overlap⟩

/-- A tensor that shares an address with one that is there is in conflict. -/
theorem not_clash_of_conflict? (ready : launch.Ready catalog)
    (running : launch.Running done count stage context)
    (isEntry : launch.plan.entry? lifetime.name = some entry)
    (free : context.conflict? entry.storage = none) (other : Lifetime) :
    ¬ launch.Clash (joined done [lifetime.name] stage) lifetime other := by
  intro clash
  obtain ⟨clock, reached, live⟩ := clash.right_present
  have unlike : other.name ∉ [lifetime.name] := by simp [clash.unlike.symm]
  rw [joined, if_neg unlike] at reached
  obtain ⟨otherEntry, isOther, registered⟩ :=
    running.tracks.registration? ready.recorded clash.right_mem reached live
  have apart := Context.conflict?_eq_none_iff.mp free _ (List.mem_of_find?_eq_some registered)
  obtain ⟨_, _, foundOther, foundEntry, overlap⟩ := clash.overlap.symm
  obtain rfl := Option.some.inj (isOther.symm.trans foundOther)
  obtain rfl := Option.some.inj (isEntry.symm.trans foundEntry)
  rw [overlap] at apart
  cases apart

/-- The state after a registration. -/
theorem registered (ready : launch.Ready catalog)
    (running : launch.Running done count stage context)
    (awaited : launch.Awaited done stage lifetime)
    (isEntry : launch.plan.entry? lifetime.name = some entry) :
    launch.Running done count (joined done [lifetime.name] stage)
      { context with
        tensors := context.tensors ++ [⟨lifetime.name, entry.storage, entry.refcount⟩]
        phase := .populated
        events := context.events ++ [.registered lifetime.name entry.refcount] } := by
  obtain ⟨sameEntry, _, found, _, _, refcount, _⟩ := ready.recorded.entry awaited.member
  obtain rfl := Option.some.inj (isEntry.symm.trans found)
  have known := ready.recorded.known awaited.member
  have unregistered : context.registration? lifetime.name = none := by
    rw [running.tracks.counts lifetime awaited.member entry isEntry, awaited.fresh]
    rfl
  have absent := Context.registration?_eq_none_iff.mp unregistered
  have lookup := fun other => context.registration?_append
    ⟨lifetime.name, entry.storage, entry.refcount⟩ unregistered other
  have joins : joined done [lifetime.name] stage = fun other =>
      if other.name = lifetime.name then some done else stage other := by
    funext other
    simp [joined]
  refine ⟨?_, running.queue, running.world, ?_, by simp⟩
  · rw [joins]
    refine running.tracks.update ready.recorded awaited.member ?_ ?_ ?_ ?_
    · rw [List.map_append, List.map_singleton, ← List.concat_eq_append]
      exact running.tracks.distinct.concat absent
    · intro name listed
      rw [List.map_append, List.mem_append] at listed
      rcases listed with listed | listed
      · exact .inr listed
      · exact .inl (List.mem_singleton.mp listed)
    · intro other isOther
      obtain rfl := Option.some.inj (isEntry.symm.trans isOther)
      have found := lookup lifetime.name
      rw [if_pos rfl] at found
      rw [Option.bind_some, Lifetime.registrationAt, if_neg (Nat.not_le.mpr awaited.unfinished),
        known.countAt_of_le_start awaited.before, ← refcount]
      exact found
    · intro name unlike
      have found := lookup name
      rw [if_neg unlike] at found
      exact found
  · simpa [List.filter_append, Event.isEffect] using running.effects

/-- A tensor is registered if it shares no address with one that is there, and refused if it
does. -/
theorem register (ready : launch.Ready catalog)
    (running : launch.Running done count stage execution.context)
    (awaited : launch.Awaited done stage lifetime) :
    launch.Registers execution [.register lifetime.name]
      (fun left right =>
        left = lifetime ∧ launch.Clash (joined done [lifetime.name] stage) left right)
      fun after => after.declared = execution.declared ∧
        launch.Running done count (joined done [lifetime.name] stage) after.context := by
  obtain ⟨entry, _, isEntry, _⟩ := ready.recorded.entry awaited.member
  have fresh : execution.context.registration? lifetime.name = none := by
    rw [running.tracks.counts lifetime awaited.member entry isEntry, awaited.fresh]
    rfl
  have ran : launch.runs execution [.register lifetime.name] =
      execution.withOutcome
        (execution.context.register lifetime.name entry.storage entry.refcount) := by
    simp only [runs, List.foldlM_cons, List.foldlM_nil, Execution.step, Execution.register, isEntry,
      bind_pure]
  have registering := Context.register_eq entry.storage entry.refcount running.phase fresh
  unfold Registers
  rw [ran, registering]
  cases found : execution.context.conflict? entry.storage with
  | none =>
    refine .inl ⟨_, rfl, ⟨rfl, running.registered ready awaited isEntry⟩, ?_⟩
    rintro left right ⟨rfl, clash⟩
    exact running.not_clash_of_conflict? ready isEntry found right clash
  | some name =>
    obtain ⟨other, rfl, clash⟩ := running.clash_of_conflict? ready awaited isEntry found
    exact .inr ⟨lifetime, other, ⟨rfl, clash⟩, rfl⟩

/-! ### Several tensors -/

/-- Either all tensors of a list are registered, and none of them shares an address with another
one that is then there, or one of them is refused because of such an address. -/
theorem registerAll (ready : launch.Ready catalog) {names : List String} :
    ∀ {stage : Lifetime → Option Nat} {execution : Execution World},
      (∀ name ∈ names, ∃ lifetime, lifetime.name = name ∧ launch.Awaited done stage lifetime) →
      names.Nodup → launch.Running done count stage execution.context →
      launch.Registers execution (names.map Step.register)
        (fun left right => left.name ∈ names ∧ launch.Clash (joined done names stage) left right)
        fun after => after.declared = execution.declared ∧
          launch.Running done count (joined done names stage) after.context := by
  induction names with
  | nil =>
    intro stage execution _ _ running
    have unchanged : joined done [] stage = stage := by
      funext lifetime
      simp [joined]
    exact .inl ⟨execution, rfl, ⟨rfl, unchanged.symm ▸ running⟩, by simp⟩
  | cons name rest ih =>
    intro stage execution arriving distinct running
    rw [List.nodup_cons] at distinct
    obtain ⟨lifetime, rfl, awaited⟩ := arriving name (by simp)
    have later : ∀ name ∈ rest, ∃ other, other.name = name ∧ launch.Awaited done stage other :=
      fun name listed => arriving name (by simp [listed])
    have others : ∀ name ∈ rest, ∃ other, other.name = name ∧
        launch.Awaited done (joined done [lifetime.name] stage) other := by
      intro name listed
      obtain ⟨other, rfl, waiting⟩ := later name listed
      have unlike : other.name ∉ [lifetime.name] := by
        intro same
        exact distinct.1 (List.mem_singleton.mp same ▸ listed)
      refine ⟨other, rfl, { waiting with fresh := ?_ }⟩
      rw [joined, if_neg unlike]
      exact waiting.fresh
    rw [List.map_cons, ← List.singleton_append, ← joined_cons]
    refine ((running.register ready awaited).append fun middle reached =>
      (ih others distinct.2 reached.2).imp fun after ended =>
        ⟨ended.1.trans reached.1, ended.2⟩).congr ?_ ?_
    · rintro left right (⟨rfl, clash⟩ | ⟨listed, clash⟩)
      · exact ⟨by simp, clash.imp (present_joined ready later clash.left_mem)
          (present_joined ready later clash.right_mem)⟩
      · exact ⟨by simp [listed], clash⟩
    · rintro left right ⟨listed, clash⟩
      rcases List.mem_cons.mp listed with same | listed
      · obtain rfl := ready.recorded.eq_of_name_eq clash.left_mem awaited.member same
        -- What the first tensor clashes with comes after it or was there before.
        by_cases after : right.name ∈ rest
        · exact ⟨right, left, .inr ⟨after, clash.symm⟩⟩
        · refine ⟨left, right, .inl ⟨rfl, clash.imp
            (fun _ => ⟨done, by simp [joined], awaited.unfinished⟩) ?_⟩⟩
          rintro ⟨clock, current, live⟩
          rw [joined, if_neg after] at current
          exact ⟨clock, current, live⟩
      · exact ⟨left, right, .inr ⟨listed, clash⟩⟩

end Running

end Launch

end TensorArena
