import TensorArena.Program.Session
import TensorArena.Proofs.Program.Settling

/-!
# The history of a session

As long as no count is overdrawn, the count of a registered tensor is the one it was registered
with, less one for every execution since then that has read it. The tensor is released by the
execution that takes its last unit, or, if it was registered with none, by the first that writes it.
-/

set_option autoImplicit false

namespace TensorArena

variable {World : Type}

/-- A thing that a session has done. An execution comes with the evaluation that has run and the
tensors that it has released. -/
inductive Entry (World : Type) where
  | registered (name : String) (refcount : Nat)
  | enqueued (evaluation : Evaluation World)
  | executed (evaluation : Evaluation World) (released : List String)
  | flushed (count : Nat)

namespace Entry

/-- What the entry adds to the log of the context. -/
def events : Entry World → List Event
  | .registered name refcount => [.registered name refcount]
  | .enqueued evaluation => [.enqueued evaluation.kernel.name]
  | .executed evaluation released =>
    .executed evaluation.kernel.name :: released.map .released
  | .flushed count => [.flushed count]

/-- An evaluation has run that lists the tensor among its inputs, once or several times. -/
def reads (name : String) : Entry World → Bool
  | .executed evaluation _ => evaluation.inputs.contains name
  | _ => false

def writes (name : String) : Entry World → Bool
  | .executed evaluation _ => evaluation.outputs.contains name
  | _ => false

def registers (name : String) : Entry World → Bool
  | .registered other _ => other == name
  | _ => false

def releases (name : String) : Entry World → Bool
  | .executed _ released => released.contains name
  | _ => false

end Entry

/-- The tensor was registered with the count `granted`, has been neither released nor registered
again, and `since` is what was done after that. -/
def Stands (history : List (Entry World)) (name : String) (granted : Nat)
    (since : List (Entry World)) : Prop :=
  (∃ before, history = before ++ .registered name granted :: since) ∧
    ∀ entry ∈ since, entry.registers name = false ∧ entry.releases name = false

variable {past since : List (Entry World)} {entry : Entry World} {name : String}
  {granted : Nat}

/-- One more entry either registers the tensor or leaves it standing. -/
theorem stands_concat_iff :
    Stands (past ++ [entry]) name granted since ↔
      entry = .registered name granted ∧ since = [] ∨
        ∃ earlier, since = earlier ++ [entry] ∧ Stands past name granted earlier ∧
          entry.registers name = false ∧ entry.releases name = false := by
  constructor
  · intro ⟨⟨before, whole⟩, kept⟩
    rcases List.eq_nil_or_concat since with none | ⟨earlier, last, split⟩
    · rw [none] at whole
      have ⟨_, same⟩ := List.append_inj' whole rfl
      exact .inl ⟨List.singleton_inj.mp same, none⟩
    · rw [List.concat_eq_append] at split
      rw [split, ← List.cons_append, ← List.append_assoc] at whole
      have ⟨front, same⟩ := List.append_inj' whole rfl
      have isLast := List.singleton_inj.mp same
      rw [split, ← isLast] at kept
      have ⟨others, ends⟩ := List.forall_mem_append.mp kept
      exact .inr ⟨earlier, isLast ▸ split, ⟨⟨before, front⟩, others⟩,
        ends entry (List.mem_singleton_self entry)⟩
  · rintro (⟨registered, none⟩ | ⟨earlier, split, ⟨⟨before, whole⟩, others⟩, ends⟩)
    · rw [registered, none]
      exact ⟨⟨past, rfl⟩, by simp⟩
    · refine ⟨⟨before, by rw [whole, split, List.append_assoc, List.cons_append]⟩, ?_⟩
      rw [split]
      intro other member
      rcases List.mem_append.mp member with early | last
      · exact others other early
      · rw [List.mem_singleton.mp last]
        exact ends

namespace Context

variable {context after : Context World}

/-! ### Histories -/

/-- The tensors that a call has released, in the order of the log. -/
def releasedSince (context after : Context World) : List String :=
  (after.events.drop context.events.length).filterMap fun
    | .released name => some name
    | _ => none

/-- What running some evaluations adds to a history. One that fails adds nothing. -/
def drainHistory (context : Context World) (executed : Nat) :
    List (Evaluation World) → List (Entry World)
  | [] => [.flushed executed]
  | evaluation :: rest =>
    match { context with queue := rest }.evaluate evaluation with
    | (.error _, _) => []
    | (.ok (), after) =>
      .executed evaluation (context.releasedSince after) :: after.drainHistory (executed + 1) rest

/-- What a request adds to a history. A request to finish begins with a flush. -/
def requestHistory (context : Context World) (request : Request World) : List (Entry World) :=
  match request, (context.perform request).1 with
  | .register name _ refcount, .ok () => [.registered name refcount]
  | .enqueue evaluation, .ok () => [.enqueued evaluation]
  | .register .., .error _ | .enqueue _, .error _ => []
  | .flush, _ | .finish _, _ =>
    if context.phase = .terminated then [] else context.drainHistory 0 context.queue

/-- The history of a session. -/
def history (context : Context World) : List (Request World) → List (Entry World)
  | [] => []
  | request :: rest => context.requestHistory request ++ (context.perform request).2.history rest

/-- The results of the requests of a session. -/
def results (context : Context World) : List (Request World) → List (Except ContextError Unit)
  | [] => []
  | request :: rest => (context.perform request).1 :: (context.perform request).2.results rest

/-! ### What an entry does to the counts -/

/-- The context has moved as the entry says. -/
structure Moves (context : Context World) (entry : Entry World) (after : Context World) :
    Prop where
  log : after.events = context.events ++ entry.events
  running : context.phase ≠ .terminated → after.phase ≠ .terminated
  begins : ∀ name granted, entry = .registered name granted → after.refcount? name = some granted
  releases_iff : ∀ name, entry.releases name = true ↔
    entry.reads name = true ∧ context.refcount? name = some 1 ∨
      entry.writes name = true ∧ context.refcount? name = some 0
  gone : ∀ name, entry.releases name = true → after.refcount? name = none
  held : ∀ name, entry.reads name = true → ∃ left, context.refcount? name = some (left + 1)
  kept : ∀ name, entry.registers name = false → entry.releases name = false →
    after.refcount? name = (context.refcount? name).map fun count =>
      if entry.reads name then count - 1 else count

theorem moves_registered {refcount : Nat} {storage : Storage}
    (fresh : context.refcount? name = none)
    (appended : after.tensors = context.tensors ++ [⟨name, storage, refcount⟩])
    (populated : after.phase = .populated)
    (log : after.events = context.events ++ [.registered name refcount]) :
    context.Moves (.registered name refcount) after where
  log := log
  running := by
    rw [populated]
    exact fun _ => nofun
  begins := by
    intro other granted same
    cases same
    rw [refcount?_of_append appended fresh, if_pos rfl]
  releases_iff := by simp [Entry.releases, Entry.reads, Entry.writes]
  gone := nofun
  held := nofun
  kept := by
    intro other unlike _
    have different : other ≠ name := by
      intro same
      simp [Entry.registers, same] at unlike
    rw [refcount?_of_append appended fresh, if_neg different]
    simp [Entry.reads]

/-- Entries that concern no tensor in particular leave all counts alone. -/
theorem moves_of_same (plain : ∀ name, entry.registers name = false ∧
      entry.releases name = false ∧ entry.reads name = false ∧ entry.writes name = false)
    (same : ∀ name, after.refcount? name = context.refcount? name)
    (running : after.phase ≠ .terminated)
    (log : after.events = context.events ++ entry.events) : context.Moves entry after where
  log := log
  running := fun _ => running
  begins := by
    intro name granted registered
    have unregistered := (plain name).1
    rw [registered] at unregistered
    simp [Entry.registers] at unregistered
  releases_iff := by simp [plain]
  gone := by simp [plain]
  held := by simp [plain]
  kept := by
    intro name _ _
    simp [plain, same]

theorem Settles.moves {evaluation : Evaluation World} {released : List String}
    (settles : context.Settles evaluation released after) :
    context.Moves (.executed evaluation released) after where
  log := settles.events
  running := by
    rw [settles.phase]
    exact id
  begins := nofun
  releases_iff := by simpa [Entry.releases, Entry.reads, Entry.writes] using settles.mem_released_iff
  gone := by simpa [Entry.releases] using settles.gone
  held := by simpa [Entry.reads] using settles.held
  kept := by
    intro name _ kept
    simpa [Entry.reads] using settles.counts name (by simpa [Entry.releases] using kept)

/-- A tensor that is not released loses a unit if it is read. If no unit is left it had none before,
and has not been written either. -/
theorem Moves.left {count : Nat} (moves : context.Moves entry after)
    (found : context.refcount? name = some count) (unlike : entry.registers name = false)
    (kept : entry.releases name = false) :
    ∃ left, after.refcount? name = some left ∧
      left + (if entry.reads name then 1 else 0) = count ∧
      (left = 0 → count = 0 ∧ entry.writes name = false) := by
  have quiet := mt (moves.releases_iff name).mpr (Bool.eq_false_iff.mp kept)
  rw [not_or, not_and, not_and] at quiet
  rw [moves.kept name unlike kept, found]
  by_cases reads : entry.reads name = true
  · -- The tensor holds at least two units, since its last one would release it.
    have ⟨left, held⟩ := moves.held name reads
    have positive : count = left + 1 := Option.some.inj (found.symm.trans held)
    have several : left ≠ 0 := by
      intro last
      exact quiet.1 reads (held.trans (by rw [last]))
    exact ⟨left, by simp [reads, positive], by rw [if_pos reads, positive],
      fun last => absurd last several⟩
  · refine ⟨count, by simp [reads], by simp [reads], ?_⟩
    intro none
    refine ⟨none, Bool.eq_false_iff.mpr ?_⟩
    intro writes
    exact quiet.2 writes (none ▸ found)

/-! ### The account -/

/-- The history accounts for the log and the counts of the context. -/
structure Accounts (past : List (Entry World)) (context : Context World) : Prop where
  log : past.flatMap Entry.events = context.events
  running : context.phase ≠ .terminated
  standing : ∀ name, context.refcount? name ≠ none →
    ∃ granted since, Stands past name granted since
  counted : ∀ name granted since, Stands past name granted since →
    ∃ count, context.refcount? name = some count ∧
      count + since.countP (Entry.reads name) = granted ∧ (count = 0 → granted = 0) ∧
      (granted = 0 → ∀ entry ∈ since, entry.writes name = false)
  settled : ∀ before evaluation released later,
    past = before ++ .executed evaluation released :: later →
    ∀ name, name ∈ released ↔ ∃ granted since, Stands before name granted since ∧
      (name ∈ evaluation.inputs ∧ since.countP (Entry.reads name) + 1 = granted ∨
        name ∈ evaluation.outputs ∧ granted = 0 ∧
          ∀ entry ∈ since, entry.writes name = false)

namespace Accounts

theorem initial (world : World) : Accounts [] { world } where
  log := rfl
  running := nofun
  standing := fun _ registered => absurd rfl registered
  counted := by
    intro name granted since ⟨⟨before, whole⟩, _⟩
    simp at whole
  settled := by
    intro before evaluation released later whole
    simp at whole

theorem congr (accounts : Accounts past context)
    (same : ∀ name, after.refcount? name = context.refcount? name)
    (events : after.events = context.events) (phase : after.phase = context.phase) :
    Accounts past after where
  log := accounts.log.trans events.symm
  running := phase ▸ accounts.running
  standing := by
    intro name registered
    rw [same] at registered
    exact accounts.standing name registered
  counted := by
    intro name granted since stands
    rw [same]
    exact accounts.counted name granted since stands
  settled := accounts.settled

/-- The count of a tensor read off the history. -/
theorem refcount?_eq_some_iff (accounts : Accounts past context) {count : Nat} :
    context.refcount? name = some count ↔
      ∃ granted since, Stands past name granted since ∧
        count + since.countP (Entry.reads name) = granted ∧ (count = 0 → granted = 0) := by
  constructor
  · intro found
    have ⟨granted, since, stands⟩ := accounts.standing name (by simp [found])
    have ⟨other, isOther, sum, zero, _⟩ := accounts.counted name granted since stands
    have same : count = other := Option.some.inj (found.symm.trans isOther)
    rw [← same] at sum zero
    exact ⟨granted, since, stands, sum, zero⟩
  · intro ⟨granted, since, stands, sum, _⟩
    have ⟨other, isOther, otherSum, _⟩ := accounts.counted name granted since stands
    have same : other = count := by omega
    rw [isOther, same]

/-- A tensor is released as the history before the execution demands. -/
theorem releases_iff (accounts : Accounts past context) {evaluation : Evaluation World}
    {released : List String} (moves : context.Moves (.executed evaluation released) after)
    (name : String) :
    name ∈ released ↔ ∃ granted since, Stands past name granted since ∧
      (name ∈ evaluation.inputs ∧ since.countP (Entry.reads name) + 1 = granted ∨
        name ∈ evaluation.outputs ∧ granted = 0 ∧
          ∀ entry ∈ since, entry.writes name = false) := by
  have effect := moves.releases_iff name
  simp only [Entry.releases, Entry.reads, Entry.writes, List.contains_iff_mem] at effect
  rw [effect]
  constructor
  · rintro (⟨reads, one⟩ | ⟨writes, zero⟩)
    · have ⟨granted, since, stands, sum, _⟩ := accounts.refcount?_eq_some_iff.mp one
      exact ⟨granted, since, stands, .inl ⟨reads, by omega⟩⟩
    · have ⟨granted, since, stands, _, ungranted⟩ := accounts.refcount?_eq_some_iff.mp zero
      have ⟨_, _, _, _, unwritten⟩ := accounts.counted name granted since stands
      exact ⟨granted, since, stands, .inr ⟨writes, ungranted rfl, unwritten (ungranted rfl)⟩⟩
  · rintro ⟨granted, since, stands, ⟨reads, sum⟩ | ⟨writes, zero, _⟩⟩
    · have ⟨count, found, total, _⟩ := accounts.counted name granted since stands
      have one : count = 1 := by omega
      exact .inl ⟨reads, one ▸ found⟩
    · have ⟨count, found, total, _⟩ := accounts.counted name granted since stands
      have none : count = 0 := by omega
      exact .inr ⟨writes, none ▸ found⟩

theorem append (accounts : Accounts past context) (moves : context.Moves entry after) :
    Accounts (past ++ [entry]) after where
  log := by
    rw [List.flatMap_append, accounts.log, moves.log]
    simp
  running := moves.running accounts.running
  standing := by
    intro name registered
    have kept : entry.releases name = false := by
      by_contra released
      exact registered (moves.gone name (by simpa using released))
    by_cases begins : entry.registers name = true
    · cases entry with
      | registered other granted =>
        have same : other = name := by simpa [Entry.registers] using begins
        exact ⟨granted, [], stands_concat_iff.mpr (.inl ⟨by rw [same], rfl⟩)⟩
      | _ => cases begins
    · have unlike := Bool.eq_false_iff.mpr begins
      rw [moves.kept name unlike kept] at registered
      have before : context.refcount? name ≠ none := by
        intro missing
        simp [missing] at registered
      have ⟨granted, since, stands⟩ := accounts.standing name before
      exact ⟨granted, since ++ [entry],
        stands_concat_iff.mpr (.inr ⟨since, rfl, stands, unlike, kept⟩)⟩
  counted := by
    intro name granted since stands
    rcases stands_concat_iff.mp stands with
      ⟨registered, none⟩ | ⟨earlier, split, stands, unlike, kept⟩
    · rw [none]
      exact ⟨granted, moves.begins name granted registered, by simp, id, by simp⟩
    · have ⟨count, found, sum, zero, unwritten⟩ := accounts.counted name granted earlier stands
      have ⟨left, isLeft, spent, last⟩ := moves.left found unlike kept
      rw [split, List.countP_append, List.countP_singleton]
      refine ⟨left, isLeft, by omega, fun none => zero (last none).1, ?_⟩
      intro none
      have untouched : left = 0 := by omega
      exact List.forall_mem_append.mpr
        ⟨unwritten none, List.forall_mem_singleton.mpr (last untouched).2⟩
  settled := by
    intro before evaluation released later whole
    rcases List.eq_nil_or_concat later with none | ⟨front, last, split⟩
    · rw [none] at whole
      have ⟨same, isEntry⟩ := List.append_inj' whole rfl
      rw [← same]
      exact accounts.releases_iff (List.singleton_inj.mp isEntry ▸ moves)
    · rw [split, List.concat_eq_append, ← List.cons_append, ← List.append_assoc] at whole
      exact accounts.settled before evaluation released front (List.append_inj' whole rfl).1

end Accounts

/-! ### Runs -/

theorem Settles.releasedSince {evaluation : Evaluation World} {released : List String}
    (settles : context.Settles evaluation released after) :
    context.releasedSince after = released := by
  unfold Context.releasedSince
  rw [settles.events, List.drop_left, List.filterMap_cons, List.filterMap_map]
  exact List.filterMap_some

/-- Why a flush ends at an evaluation: it does not find a tensor, its kernel fails, or it has run and
reads a tensor that was registered with the count zero. Only in the last case its execution is in
the log. -/
inductive Stops (past : List (Entry World)) (evaluation : Evaluation World)
    (after : Context World) : ContextError → Prop where
  | unregistered {name : String} (listed : name ∈ evaluation.inputs ++ evaluation.outputs)
      (missing : after.refcount? name = none)
      (log : after.events = past.flatMap Entry.events) :
      Stops past evaluation after (.notRegistered name)
  | failed {error : ContextError} (inputs outputs : List Handle) (world : World)
      (failure : evaluation.kernel.execute inputs outputs world = (.error error, after.world))
      (log : after.events = past.flatMap Entry.events) :
      Stops past evaluation after error
  | underflow {name : String} (since : List (Entry World)) (released : List String)
      (reads : name ∈ evaluation.inputs) (stands : Stands past name 0 since)
      (log : after.events = past.flatMap Entry.events ++
        .executed evaluation.kernel.name :: released.map .released) :
      Stops past evaluation after (.refcountUnderflow name)

namespace Accounts

theorem drain_ok (accounts : Accounts past context) {executed : Nat}
    {queue : List (Evaluation World)} (success : context.drain executed queue = (.ok (), after)) :
    Accounts (past ++ context.drainHistory executed queue) after := by
  induction queue generalizing context past executed with
  | nil =>
    cases success
    exact accounts.append (moves_of_same (by simp [Entry.registers, Entry.releases, Entry.reads,
      Entry.writes]) (fun _ => rfl) nofun rfl)
  | cons evaluation rest ih =>
    have taken : Accounts past { context with queue := rest } :=
      accounts.congr (fun _ => rfl) rfl rfl
    have spec := evaluate_spec { context with queue := rest } evaluation
    unfold Context.drain at success
    unfold drainHistory
    generalize Context.evaluate { context with queue := rest } evaluation = outcome at *
    cases spec with
    | settled settles =>
      have later := ih (taken.append settles.moves) success
      have released : context.releasedSince _ = _ := settles.releasedSince
      rw [List.append_assoc] at later
      dsimp only
      rw [released]
      exact later
    | refused => cases success
    | underflow => cases success

/-- A drain that stops has done what comes before the evaluation it stops at. The account holds on
unless that evaluation has overdrawn a count. -/
theorem drain_error (accounts : Accounts past context) {executed : Nat}
    {queue : List (Evaluation World)} {error : ContextError}
    (failure : context.drain executed queue = (.error error, after)) :
    (∃ done evaluation, queue = done ++ evaluation :: after.queue ∧
      Stops (past ++ context.drainHistory executed queue) evaluation after error) ∧
    ((∀ name, error ≠ .refcountUnderflow name) →
      Accounts (past ++ context.drainHistory executed queue) after) := by
  induction queue generalizing context past executed with
  | nil => cases failure
  | cons evaluation rest ih =>
    have taken : Accounts past { context with queue := rest } :=
      accounts.congr (fun _ => rfl) rfl rfl
    have spec := evaluate_spec { context with queue := rest } evaluation
    unfold Context.drain at failure
    unfold drainHistory
    generalize Context.evaluate { context with queue := rest } evaluation = outcome at *
    cases spec with
    | settled settles =>
      have released : context.releasedSince _ = _ := settles.releasedSince
      have later := ih (taken.append settles.moves) failure
      dsimp only
      rw [released]
      rw [List.append_assoc] at later
      have ⟨⟨done, stopped, split, stops⟩, accounted⟩ := later
      refine ⟨⟨evaluation :: done, stopped, ?_, stops⟩, accounted⟩
      rw [split, List.cons_append]
    | refused refuses =>
      cases failure
      dsimp only
      rw [List.append_nil]
      refine ⟨⟨[], evaluation, rfl, ?_⟩, fun _ => taken.congr (fun _ => rfl) rfl rfl⟩
      cases refuses with
      | unregistered listed missing => exact .unregistered listed missing taken.log.symm
      | failed _ _ ran => exact .failed _ _ _ ran taken.log.symm
    | underflow released reads zero queue _ events =>
      cases failure
      dsimp only
      rw [List.append_nil]
      have ⟨granted, since, stands, _, ungranted⟩ := taken.refcount?_eq_some_iff.mp zero
      rw [ungranted rfl] at stands
      refine ⟨⟨[], evaluation, ?_, .underflow since released reads stands ?_⟩, ?_⟩
      · rw [List.nil_append, queue]
      · rw [events, taken.log]
      · intro counted
        exact absurd rfl (counted _)

theorem flush_error (accounts : Accounts past context) {error : ContextError}
    (failure : context.flush.1 = .error error) :
    ∃ done evaluation, context.queue = done ++ evaluation :: context.flush.2.queue ∧
      Stops (past ++ context.requestHistory .flush) evaluation context.flush.2 error := by
  have flush : context.flush = context.drain 0 context.queue := if_neg accounts.running
  have history : context.requestHistory .flush = context.drainHistory 0 context.queue :=
    if_neg accounts.running
  rw [history]
  rw [flush] at failure ⊢
  exact (accounts.drain_error (Prod.ext failure rfl)).1

theorem flush (accounts : Accounts past context)
    (counted : ∀ name, context.flush.1 ≠ .error (.refcountUnderflow name)) :
    Accounts (past ++ context.requestHistory .flush) context.flush.2 := by
  have flush : context.flush = context.drain 0 context.queue := if_neg accounts.running
  have history : context.requestHistory .flush = context.drainHistory 0 context.queue :=
    if_neg accounts.running
  rw [history]
  rw [flush] at counted ⊢
  cases result : (context.drain 0 context.queue).1 with
  | ok => exact accounts.drain_ok (Prod.ext result rfl)
  | error error =>
    refine (accounts.drain_error (Prod.ext result rfl)).2 fun name same => ?_
    exact counted name (result.trans (by rw [same]))

theorem perform (accounts : Accounts past context) {request : Request World}
    (unfinished : ∀ outputs, request ≠ .finish outputs)
    (counted : ∀ name, (context.perform request).1 ≠ .error (.refcountUnderflow name)) :
    Accounts (past ++ context.requestHistory request) (context.perform request).2 := by
  cases request with
  | register name storage refcount =>
    unfold requestHistory
    show Accounts _ (context.register name storage refcount).2
    rcases context.register_cases name storage refcount with ⟨error, failed⟩ | ⟨fresh, added⟩
    · have result : (context.perform (.register name storage refcount)).1 = .error error :=
        congrArg Prod.fst failed
      rw [result, failed, List.append_nil]
      exact accounts
    · have result : (context.perform (.register name storage refcount)).1 = .ok () :=
        congrArg Prod.fst added
      rw [result, added]
      exact accounts.append (moves_registered fresh rfl rfl rfl)
  | enqueue evaluation =>
    unfold requestHistory
    show Accounts _ (context.enqueue evaluation).2
    rcases context.enqueue_cases evaluation with ⟨error, failed⟩ | added
    · have result : (context.perform (.enqueue evaluation)).1 = .error error :=
        congrArg Prod.fst failed
      rw [result, failed, List.append_nil]
      exact accounts
    · have result : (context.perform (.enqueue evaluation)).1 = .ok () :=
        congrArg Prod.fst added
      rw [result, added]
      exact accounts.append (moves_of_same (by simp [Entry.registers, Entry.releases, Entry.reads,
        Entry.writes]) (fun _ => rfl) nofun rfl)
  | flush => exact accounts.flush counted
  | finish outputs => exact absurd rfl (unfinished outputs)

theorem performAll (accounts : Accounts past context) {requests : List (Request World)}
    (unfinished : ∀ outputs, .finish outputs ∉ requests)
    (counted : ∀ name, .error (.refcountUnderflow name) ∉ context.results requests) :
    Accounts (past ++ context.history requests) (context.performAll requests) := by
  induction requests generalizing context past with
  | nil =>
    rw [Context.history, List.append_nil]
    exact accounts
  | cons request rest ih =>
    have first := accounts.perform
      (fun outputs same => unfinished outputs (same ▸ List.mem_cons_self ..))
      (fun name same => counted name (same ▸ List.mem_cons_self ..))
    have later := ih first
      (fun outputs member => unfinished outputs (List.mem_cons_of_mem _ member))
      (fun name member => counted name (List.mem_cons_of_mem _ member))
    rw [List.append_assoc] at later
    exact later

end Accounts

/-- Counts account for the readers that have run. In a session of registrations, evaluations and
flushes in which no count was overdrawn, the history yields the log, and a registered tensor has
the count of its last registration less the executions since then that read it; a count of zero was
zero from the start. An execution releases those tensors whose granted units it reads the last of,
and those registered with the count zero that it is the first to write. If a flush fails when counts
are taken, behind an execution, a tensor is read that was registered with the count zero. -/
theorem session_counts_readers (world : World) (requests : List (Request World))
    (unfinished : ∀ outputs, .finish outputs ∉ requests)
    (counted : ∀ name, .error (.refcountUnderflow name) ∉ results { world } requests) :
    let context := performAll { world } requests
    let past := history { world } requests
    past.flatMap Entry.events = context.events ∧
      (∀ name count, context.refcount? name = some count ↔
        ∃ granted since, Stands past name granted since ∧
          count + since.countP (Entry.reads name) = granted ∧ (count = 0 → granted = 0)) ∧
      (∀ before evaluation released later,
        past = before ++ .executed evaluation released :: later →
        ∀ name, name ∈ released ↔ ∃ granted since, Stands before name granted since ∧
          (name ∈ evaluation.inputs ∧ since.countP (Entry.reads name) + 1 = granted ∨
            name ∈ evaluation.outputs ∧ granted = 0 ∧
              ∀ entry ∈ since, entry.writes name = false)) ∧
      ∀ error, context.flush.1 = .error error →
        ∃ done evaluation, context.queue = done ++ evaluation :: context.flush.2.queue ∧
          Stops (past ++ context.requestHistory .flush) evaluation context.flush.2 error := by
  intro context past
  have accounts : Accounts past context :=
    (Accounts.initial world).performAll unfinished counted
  exact ⟨accounts.log, fun _ _ => accounts.refcount?_eq_some_iff, accounts.settled,
    fun _ failure => accounts.flush_error failure⟩

/-- A session in which a tensor is read twice and its name is given to another, which is not to be
read but is. -/
def countingSession : List (Request Unit) :=
  [.register "x" (.arena 0 4) 2, .register "y" (.arena 4 4) 0, .register "z" (.arena 8 4) 1,
    .enqueue ⟨.idle Unit "square", ["x", "x"], ["y"]⟩, .enqueue ⟨.idle Unit "copy", ["x"], ["z"]⟩,
    .flush, .register "x" (.arena 0 8) 0, .enqueue ⟨.idle Unit "sum", ["z", "x"], []⟩]

theorem countingSession_counts_readers :
    let context := performAll { world := () } countingSession
    let past := history { world := () } countingSession
    (∀ outputs, .finish outputs ∉ countingSession) ∧
      (∀ name, .error (.refcountUnderflow name) ∉ results { world := () } countingSession) ∧
      context.events = [.registered "x" 2, .registered "y" 0, .registered "z" 1,
        .enqueued "square", .enqueued "copy", .executed "square", .released "y",
        .executed "copy", .released "x", .flushed 2, .registered "x" 0, .enqueued "sum"] ∧
      past.flatMap Entry.events = context.events ∧
      context.refcount? "z" = some 1 ∧
      (∃ granted since, Stands past "z" granted since ∧
        1 + since.countP (Entry.reads "z") = granted) ∧
      context.flush.1 = .error (.refcountUnderflow "x") ∧
      ∃ evaluation, evaluation.inputs = ["z", "x"] ∧
        Stops (past ++ context.requestHistory .flush) evaluation context.flush.2
          (.refcountUnderflow "x") := by
  intro context past
  have unfinished : ∀ outputs, Request.finish outputs ∉ countingSession := by
    simp [countingSession]
  have counted : ∀ name,
      .error (.refcountUnderflow name) ∉ results { world := () } countingSession := by
    have successes : results { world := () } countingSession = List.replicate 8 (.ok ()) := by
      decide +kernel
    simp [successes]
  have ⟨log, counts, _, stops⟩ := session_counts_readers () countingSession unfinished counted
  have held : context.refcount? "z" = some 1 := by decide +kernel
  have failure : context.flush.1 = .error (.refcountUnderflow "x") := by decide +kernel
  have ⟨granted, since, stands, sum, _⟩ := (counts "z" 1).mp held
  have ⟨done, evaluation, split, stopped⟩ := stops _ failure
  have reads : evaluation.inputs = ["z", "x"] := by
    have only : context.queue.map Evaluation.inputs = [["z", "x"]] := by decide +kernel
    rw [split, List.map_append, List.map_cons] at only
    cases done with
    | nil => exact (List.cons.inj only).1
    | cons first rest => simp at only
  exact ⟨unfinished, counted, by decide +kernel, log, held, ⟨granted, since, stands, sum⟩, failure,
    evaluation, reads, stopped⟩

end Context

end TensorArena
