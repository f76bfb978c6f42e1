import TensorArena.Program.Context
import TensorArena.Proofs.Names

/-!
# The registered tensors of a context

What each operation of a context does to the registration of each name, to the events and to the
rest of the context.
-/

set_option autoImplicit false

namespace TensorArena

namespace Context

variable {World : Type}

theorem registration?_of_mem {context : Context World} {registration : Registration}
    (distinct : (context.tensors.map Registration.name).Nodup)
    (member : registration ∈ context.tensors) :
    context.registration? registration.name = some registration :=
  (find?_named_iff Registration.name distinct).mpr ⟨member, rfl⟩

theorem registration?_eq_none_iff {context : Context World} {name : String} :
    context.registration? name = none ↔ name ∉ context.tensors.map Registration.name :=
  find?_named_eq_none_iff Registration.name

/-- A call has changed the registrations and logged some events, nothing else. -/
def Logs (context : Context World) (log : List Event) (after : Context World) : Prop :=
  after = { context with tensors := after.tensors, events := context.events ++ log }

theorem Logs.refl (context : Context World) : context.Logs [] context := by
  unfold Logs
  rw [List.append_nil]

theorem Logs.trans {context middle after : Context World} {first second : List Event}
    (left : context.Logs first middle) (right : middle.Logs second after) :
    context.Logs (first ++ second) after := by
  unfold Logs at left right ⊢
  rw [right, left, List.append_assoc]

/-! ### Releasing -/

theorem registration?_release (context : Context World) (name other : String) :
    (context.release name).registration? other =
      if other = name then none else context.registration? other := by
  unfold release
  by_cases registered : context.isRegistered name = true
  · rw [if_pos registered]
    unfold registration?
    dsimp only
    rw [List.find?_filter]
    by_cases same : other = name
    · subst same
      rw [if_pos rfl, List.find?_eq_none]
      intro registration _
      simp
    · rw [if_neg same]
      congr 1
      funext registration
      by_cases named : registration.name = other
      · simp [named, same]
      · simp [named]
  · rw [if_neg registered]
    by_cases same : other = name
    · subst same
      rw [if_pos rfl]
      simpa [isRegistered] using registered
    · rw [if_neg same]

theorem release_names_sublist (context : Context World) (name : String) :
    ((context.release name).tensors.map Registration.name).Sublist
      (context.tensors.map Registration.name) := by
  unfold release
  split
  · exact List.filter_sublist.map _
  · exact List.Sublist.refl _

theorem release_eq (context : Context World) {name : String} {registration : Registration}
    (found : context.registration? name = some registration) :
    context.release name =
      { context with
        tensors := (context.release name).tensors
        events := context.events ++ [.released name] } := by
  have registered : context.isRegistered name = true := by simp [isRegistered, found]
  unfold release
  rw [if_pos registered]

/-! ### Counting -/

theorem registration?_setRefcount (context : Context World) (name other : String)
    (refcount : Nat) :
    (context.setRefcount name refcount).registration? other =
      if other = name then
        (context.registration? name).map fun registration => { registration with refcount }
      else context.registration? other := by
  unfold setRefcount registration?
  dsimp only
  rw [List.find?_map]
  have names : ((fun registration : Registration => registration.name == other) ∘
      fun registration =>
        if registration.name = name then { registration with refcount } else registration) =
      fun registration => registration.name == other := by
    funext registration
    dsimp only [Function.comp]
    split <;> rfl
  rw [names]
  by_cases same : other = name
  · subst same
    rw [if_pos rfl]
    cases found : context.tensors.find? fun registration => registration.name == other with
    | none => rfl
    | some registration =>
      have named : registration.name = other := by simpa using List.find?_some found
      simp [named]
  · rw [if_neg same]
    cases found : context.tensors.find? fun registration => registration.name == other with
    | none => rfl
    | some registration =>
      have named : registration.name = other := by simpa using List.find?_some found
      simp [named, same]

theorem setRefcount_names (context : Context World) (name : String) (refcount : Nat) :
    (context.setRefcount name refcount).tensors.map Registration.name =
      context.tensors.map Registration.name := by
  unfold setRefcount
  rw [List.map_map]
  apply List.map_congr_left
  intro registration _
  dsimp only [Function.comp]
  split <;> rfl

/-- A count of one or more loses a unit, and the last one is followed by the release. -/
theorem decrement_of_registration? {context : Context World} {name : String}
    {registration : Registration} (found : context.registration? name = some registration)
    {left : Nat} (count : registration.refcount = left + 1) :
    context.decrement name =
      (.ok (), if left = 0 then context.release name else context.setRefcount name left) := by
  unfold decrement refcount?
  rw [found, Option.map_some, count]
  cases left with
  | zero => rfl
  | succ left => rfl

/-! ### Registering -/

theorem registration?_append (context : Context World) (added : Registration)
    (fresh : context.registration? added.name = none) (other : String) :
    { context with tensors := context.tensors ++ [added] }.registration? other =
      if other = added.name then some added else context.registration? other := by
  unfold registration? at fresh ⊢
  dsimp only
  rw [List.find?_append]
  by_cases same : other = added.name
  · subst same
    simp [fresh]
  · have unlike : (added.name == other) = false := by simpa using Ne.symm same
    simp [same, unlike]

theorem conflict?_eq_none_iff {context : Context World} {storage : Storage} :
    context.conflict? storage = none ↔
      ∀ registration ∈ context.tensors, registration.storage.overlaps storage = false := by
  unfold conflict? sortNames
  rw [List.head?_eq_none_iff, ← List.length_eq_zero_iff, List.length_mergeSort, List.length_map,
    List.length_eq_zero_iff, List.filter_eq_nil_iff]
  simp only [Bool.not_eq_true]

/-- A conflict is reported with the name of a registered tensor that causes it. -/
theorem overlaps_of_conflict? {context : Context World} {storage : Storage} {name : String}
    (found : context.conflict? storage = some name) :
    ∃ registration ∈ context.tensors, registration.name = name ∧
      registration.storage.overlaps storage = true := by
  unfold conflict? sortNames at found
  have listed := List.mem_mergeSort.mp (List.mem_of_mem_head? found)
  obtain ⟨registration, member, named⟩ := List.mem_map.mp listed
  obtain ⟨registered, overlap⟩ := List.mem_filter.mp member
  exact ⟨registration, registered, named, overlap⟩

theorem register_eq {context : Context World} {name : String} (storage : Storage)
    (refcount : Nat) (running : context.phase ≠ .terminated)
    (fresh : context.registration? name = none) :
    context.register name storage refcount =
      match context.conflict? storage with
      | some other => (.error (.addressConflict name other), context)
      | none => (.ok (), { context with
          tensors := context.tensors ++ [⟨name, storage, refcount⟩]
          phase := .populated
          events := context.events ++ [.registered name refcount] }) := by
  have unregistered : ¬ context.isRegistered name = true := by simp [isRegistered, fresh]
  exact (if_neg running).trans (if_neg unregistered)

theorem enqueue_eq_ok (context : Context World) (evaluation : Evaluation World)
    (running : context.phase ≠ .terminated)
    (registered : ∀ name ∈ evaluation.inputs ++ evaluation.outputs,
      context.isRegistered name = true) :
    context.enqueue evaluation =
      (.ok (), { context with
        queue := context.queue ++ [evaluation]
        phase := .populated
        events := context.events ++ [.enqueued evaluation.kernel.name] }) := by
  unfold enqueue
  have known : (evaluation.inputs ++ evaluation.outputs).find? (fun name =>
      !context.isRegistered name) = none := by
    rw [List.find?_eq_none]
    intro name member
    simp [registered name member]
  rw [if_neg running, known]

/-! ### The names of a list -/

theorem mem_distinct {seen names : List String} {name : String} :
    name ∈ distinct seen names ↔ name ∈ names ∧ name ∉ seen := by
  induction names generalizing seen with
  | nil => simp [distinct]
  | cons first rest ih =>
    unfold distinct
    by_cases known : first ∈ seen
    · rw [if_pos (by simpa using known), ih]
      constructor
      · rintro ⟨member, fresh⟩
        exact ⟨List.mem_cons_of_mem _ member, fresh⟩
      · rintro ⟨member, fresh⟩
        rcases List.mem_cons.mp member with rfl | member
        · exact absurd known fresh
        · exact ⟨member, fresh⟩
    · rw [if_neg (by simpa using known), List.mem_cons, ih, List.mem_cons, List.mem_cons]
      by_cases same : name = first
      · subst same
        simp [known]
      · simp [same]

theorem mem_distinct_nil {names : List String} {name : String} :
    name ∈ distinct [] names ↔ name ∈ names := by
  rw [mem_distinct]
  exact and_iff_left List.not_mem_nil

theorem distinct_nodup (seen names : List String) : (distinct seen names).Nodup := by
  induction names generalizing seen with
  | nil => exact List.nodup_nil
  | cons first rest ih =>
    unfold distinct
    split
    · exact ih seen
    · refine List.nodup_cons.mpr ⟨?_, ih _⟩
      intro member
      exact (mem_distinct.mp member).2 (List.mem_cons_self ..)

end Context

end TensorArena
