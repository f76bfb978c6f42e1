import TensorArena.Proofs.Lifetime.Exact

/-!
# Intervals and counts

A step reads a tensor only inside the tensor's interval. Once the tensor is there, its interval is
over as soon as nobody is going to read it, unless it is an output of the graph.
-/

set_option autoImplicit false

namespace TensorArena

namespace Lifetime

/-- The number of steps from `step` on that read the tensor. -/
def readersFrom (lifetime : Lifetime) (step : Nat) : Nat :=
  (lifetime.consumers.filter fun reader => step ≤ reader).length

/-- The reference count of the tensor before `step` runs. -/
def countAt (lifetime : Lifetime) (step : Nat) : Nat :=
  lifetime.readersFrom step + if lifetime.isOutput then 1 else 0

theorem readersFrom_eq_zero_iff (lifetime : Lifetime) (step : Nat) :
    lifetime.readersFrom step = 0 ↔ ∀ reader ∈ lifetime.consumers, reader < step := by
  simp [readersFrom, List.filter_eq_nil_iff]

theorem readersFrom_succ_of_not_mem (lifetime : Lifetime) {step : Nat}
    (unread : step ∉ lifetime.consumers) :
    lifetime.readersFrom (step + 1) = lifetime.readersFrom step := by
  unfold readersFrom
  congr 1
  apply List.filter_congr
  intro reader member
  have unlike : reader ≠ step := fun same => unread (same ▸ member)
  simp only [decide_eq_decide]
  omega

theorem readersFrom_of_mem {lifetime : Lifetime}
    (ascending : lifetime.consumers.Pairwise (· < ·)) {step : Nat}
    (read : step ∈ lifetime.consumers) :
    lifetime.readersFrom step = lifetime.readersFrom (step + 1) + 1 := by
  unfold readersFrom
  generalize lifetime.consumers = consumers at ascending read
  induction consumers with
  | nil => cases read
  | cons first rest ih =>
    obtain ⟨later, ascending⟩ := List.pairwise_cons.mp ascending
    rcases List.mem_cons.mp read with rfl | read
    · have same : (rest.filter fun reader => step ≤ reader) =
          rest.filter fun reader => step + 1 ≤ reader := by
        apply List.filter_congr
        intro reader member
        have := later reader member
        simp only [decide_eq_decide]
        omega
      simp [same]
    · have earlier := later step read
      simp only [List.filter_cons, show ¬ step ≤ first by omega, show ¬ step + 1 ≤ first by omega,
        decide_false, Bool.false_eq_true, ↓reduceIte]
      exact ih ascending read

/-- The last of some ascending steps is the greatest of them. -/
theorem last_of_ascending {steps : List Nat} (ascending : steps.Pairwise (· < ·)) :
    steps = [] ∨ ∃ last, steps.getLast? = some last ∧ last ∈ steps ∧
      ∀ step ∈ steps, step ≤ last := by
  rcases List.eq_nil_or_concat steps with none | ⟨init, last, whole⟩
  · exact .inl none
  · rw [List.concat_eq_append] at whole
    subst whole
    refine .inr ⟨last, by simp, by simp, ?_⟩
    intro step member
    rcases List.mem_append.mp member with earlier | same
    · exact Nat.le_of_lt ((List.pairwise_append.mp ascending).2.2 step earlier last (by simp))
    · exact Nat.le_of_eq (List.mem_singleton.mp same)

namespace Exact

variable {graph : Graph} {lifetime : Lifetime}

theorem start_of_writes (exact : lifetime.Exact graph) {step : Nat}
    (writes : graph.Writes step lifetime.name) : lifetime.interval.start = step + 1 := by
  simp [exact.start, (exact.producer step).mpr writes]

theorem writes_of_start (exact : lifetime.Exact graph) {step : Nat}
    (started : lifetime.interval.start = step + 1) : graph.Writes step lifetime.name := by
  rw [exact.start] at started
  cases produced : lifetime.producer with
  | none => simp [produced] at started
  | some written =>
    obtain rfl : written = step := by simpa [produced] using started
    exact (exact.producer _).mp produced

/-- A step brings those tensors to life that start with it. -/
theorem started_iff (exact : lifetime.Exact graph) {step : Nat} {operator : Operator}
    (present : graph.operators[step]? = some operator) :
    (lifetime.interval.start ≤ step ∨ lifetime.name ∈ operator.outputs) ↔
      lifetime.interval.start ≤ step + 1 := by
  rw [← Graph.writes_iff present]
  constructor
  · rintro (early | written)
    · exact Nat.le_succ_of_le early
    · exact Nat.le_of_eq (exact.start_of_writes written)
  · intro started
    rcases Nat.le_or_eq_of_le_succ started with early | now
    · exact .inl early
    · exact .inr (exact.writes_of_start now)

theorem start_eq_zero_iff (exact : lifetime.Exact graph) :
    lifetime.interval.start = 0 ↔ lifetime.role ≠ .intermediate := by
  rw [exact.start, Ne, exact.intermediate]
  cases lifetime.producer <;> simp

theorem start_le_length (exact : lifetime.Exact graph) :
    lifetime.interval.start ≤ graph.operators.length := by
  cases started : lifetime.interval.start with
  | zero => exact Nat.zero_le _
  | succ step => exact (exact.writes_of_start started).lt_length

theorem start_le_of_reads (exact : lifetime.Exact graph) {step : Nat}
    (reads : graph.Reads step lifetime.name) : lifetime.interval.start ≤ step := by
  cases started : lifetime.interval.start with
  | zero => exact Nat.zero_le _
  | succ written =>
    have produced := (exact.producer written).mpr (exact.writes_of_start started)
    exact exact.before written step produced ((exact.consumers step).mpr reads)

/-- Nobody reads a tensor before it is written. -/
theorem readersFrom_of_le_start (exact : lifetime.Exact graph) {step : Nat}
    (before : step ≤ lifetime.interval.start) :
    lifetime.readersFrom step = lifetime.consumers.length := by
  unfold readersFrom
  rw [List.filter_eq_self.mpr]
  intro reader member
  have := exact.start_le_of_reads ((exact.consumers reader).mp member)
  rw [decide_eq_true_eq]
  omega

theorem stop_of_output (exact : lifetime.Exact graph) (output : lifetime.isOutput = true) :
    lifetime.interval.stop = graph.operators.length + 1 := by
  simp [exact.stop, output]

/-- The interval of a tensor that is no output ends with its last reader, or where it starts. -/
theorem stop_eq (exact : lifetime.Exact graph) (inner : lifetime.isOutput = false) :
    (lifetime.consumers = [] ∧ lifetime.interval.stop = lifetime.interval.start) ∨
      ∃ last ∈ lifetime.consumers, (∀ reader ∈ lifetime.consumers, reader ≤ last) ∧
        lifetime.interval.stop = last + 1 := by
  have stop := exact.stop
  simp only [inner, Bool.false_eq_true, ↓reduceIte] at stop
  rcases last_of_ascending exact.ascending with unread | ⟨last, final, member, greatest⟩
  · exact .inl ⟨unread, by simp [stop, unread]⟩
  · exact .inr ⟨last, member, greatest, by simp [stop, final]⟩

theorem lt_stop_of_reads (exact : lifetime.Exact graph) {step : Nat}
    (reads : graph.Reads step lifetime.name) : step < lifetime.interval.stop := by
  have member := (exact.consumers step).mpr reads
  cases output : lifetime.isOutput with
  | true =>
    have := reads.lt_length
    have := exact.stop_of_output output
    omega
  | false =>
    rcases exact.stop_eq output with ⟨unread, _⟩ | ⟨last, _, greatest, stop⟩
    · rw [unread] at member
      cases member
    · have := greatest step member
      omega

theorem start_le_stop (exact : lifetime.Exact graph) :
    lifetime.interval.start ≤ lifetime.interval.stop := by
  cases output : lifetime.isOutput with
  | true =>
    have := exact.start_le_length
    have := exact.stop_of_output output
    omega
  | false =>
    rcases exact.stop_eq output with ⟨_, stop⟩ | ⟨last, member, _, stop⟩
    · exact Nat.le_of_eq stop.symm
    · have := exact.start_le_of_reads ((exact.consumers last).mp member)
      omega

theorem stop_le_exit (exact : lifetime.Exact graph) :
    lifetime.interval.stop ≤ graph.operators.length + 1 := by
  cases output : lifetime.isOutput with
  | true => exact Nat.le_of_eq (exact.stop_of_output output)
  | false =>
    rcases exact.stop_eq output with ⟨_, stop⟩ | ⟨last, member, _, stop⟩
    · have := exact.start_le_length
      omega
    · have := ((exact.consumers last).mp member).lt_length
      omega

theorem isOutput_iff (exact : lifetime.Exact graph) :
    lifetime.isOutput = true ↔ lifetime.name ∈ graph.outputs := by
  rw [exact.isOutput, Graph.isOutput, List.contains_iff_mem]

theorem stop_pos (exact : lifetime.Exact graph) : 0 < lifetime.interval.stop := by
  by_cases entry : lifetime.interval.start = 0
  · rcases exact.used (exact.start_eq_zero_iff.mp entry) with read | output
    · obtain ⟨reader, member⟩ := List.exists_mem_of_ne_nil _ read
      have := exact.lt_stop_of_reads ((exact.consumers reader).mp member)
      omega
    · have := exact.stop_of_output output
      omega
  · have := exact.start_le_stop
    omega

/-- A tensor that is there is over when nobody will read it any more, and it is no output. -/
theorem stop_le_iff (exact : lifetime.Exact graph) {step : Nat}
    (started : lifetime.interval.start ≤ step) (inside : step ≤ graph.operators.length) :
    lifetime.interval.stop ≤ step ↔
      lifetime.isOutput = false ∧ lifetime.readersFrom step = 0 := by
  rw [readersFrom_eq_zero_iff]
  cases output : lifetime.isOutput with
  | true =>
    have := exact.stop_of_output output
    simp only [Bool.true_eq_false, false_and, iff_false]
    omega
  | false =>
    simp only [true_and]
    rcases exact.stop_eq output with ⟨unread, stop⟩ | ⟨last, member, greatest, stop⟩
    · simp [unread, stop, started]
    · constructor
      · intro expired reader reads
        have := greatest reader reads
        omega
      · intro past
        have := past last member
        omega

/-- Exactly the outputs of the graph outlive its last step. -/
theorem stop_le_length_iff (exact : lifetime.Exact graph) :
    lifetime.interval.stop ≤ graph.operators.length ↔ lifetime.name ∉ graph.outputs := by
  rw [exact.stop_le_iff exact.start_le_length (Nat.le_refl _), ← exact.isOutput_iff,
    Bool.not_eq_true]
  refine ⟨And.left, fun inner => ⟨inner, (lifetime.readersFrom_eq_zero_iff _).mpr ?_⟩⟩
  exact fun reader reads => ((exact.consumers reader).mp reads).lt_length

/-- Nothing ends with a step that neither reads nor writes the tensor. -/
theorem stop_le_succ_iff (exact : lifetime.Exact graph) {step : Nat}
    (inside : step < graph.operators.length) (unread : ¬ graph.Reads step lifetime.name)
    (unwritten : ¬ graph.Writes step lifetime.name) :
    lifetime.interval.stop ≤ step + 1 ↔ lifetime.interval.stop ≤ step := by
  have same := lifetime.readersFrom_succ_of_not_mem
    (fun member => unread ((exact.consumers step).mp member))
  by_cases started : lifetime.interval.start ≤ step
  · rw [exact.stop_le_iff (by omega) inside, exact.stop_le_iff started (by omega), same]
  · have : lifetime.interval.start ≠ step + 1 :=
      fun started => unwritten (exact.writes_of_start started)
    have := exact.start_le_stop
    omega

theorem countAt_succ (exact : lifetime.Exact graph) {step : Nat}
    (unread : ¬ graph.Reads step lifetime.name) :
    lifetime.countAt (step + 1) = lifetime.countAt step := by
  unfold countAt
  rw [lifetime.readersFrom_succ_of_not_mem
    (fun member => unread ((exact.consumers step).mp member))]

theorem countAt_of_reads (exact : lifetime.Exact graph) {step : Nat}
    (reads : graph.Reads step lifetime.name) :
    lifetime.countAt step = lifetime.countAt (step + 1) + 1 := by
  unfold countAt
  rw [readersFrom_of_mem exact.ascending ((exact.consumers step).mpr reads)]
  omega

theorem countAt_of_le_start (exact : lifetime.Exact graph) {step : Nat}
    (before : step ≤ lifetime.interval.start) : lifetime.countAt step = lifetime.refcount := by
  rw [countAt, exact.readersFrom_of_le_start before, exact.refcount]

theorem not_reads_of_writes (exact : lifetime.Exact graph) {step : Nat}
    (writes : graph.Writes step lifetime.name) : ¬ graph.Reads step lifetime.name := by
  intro reads
  have := exact.start_of_writes writes
  have := exact.start_le_of_reads reads
  omega

theorem countAt_eq_zero_iff (exact : lifetime.Exact graph) {step : Nat}
    (started : lifetime.interval.start ≤ step) (inside : step ≤ graph.operators.length) :
    lifetime.countAt step = 0 ↔ lifetime.interval.stop ≤ step := by
  rw [exact.stop_le_iff started inside, countAt]
  cases lifetime.isOutput <;> simp

end Exact

end Lifetime

namespace Lifetimes.Exact

variable {graph : Graph} {lifetimes : Lifetimes}

theorem names (exact : lifetimes.Exact graph) :
    lifetimes.tensors.map Lifetime.name = graph.tensors.map Tensor.name := by
  have pairs := exact.tensors.imp (S := fun tensor lifetime => lifetime.name = tensor.name)
    fun _ _ both => both.1
  generalize lifetimes.tensors = found, graph.tensors = declared at pairs
  induction pairs with
  | nil => rfl
  | cons same _ ih => simp [same, ih]

theorem distinct_lifetimes (exact : lifetimes.Exact graph) :
    (lifetimes.tensors.map Lifetime.name).Nodup := exact.names ▸ exact.distinct

theorem get?_eq_some_iff (exact : lifetimes.Exact graph) {name : String} {lifetime : Lifetime} :
    lifetimes.get? name = some lifetime ↔ lifetime ∈ lifetimes.tensors ∧ lifetime.name = name :=
  find?_named_iff Lifetime.name exact.distinct_lifetimes

theorem exact_of_mem (exact : lifetimes.Exact graph) {lifetime : Lifetime}
    (member : lifetime ∈ lifetimes.tensors) : lifetime.Exact graph := by
  obtain ⟨index, inside, rfl⟩ := List.getElem_of_mem member
  have pairs := List.forall₂_iff_get.mp exact.tensors
  exact (pairs.2 index (by omega) inside).2

theorem exists_of_tensor? (exact : lifetimes.Exact graph) {name : String}
    (declared : (graph.tensor? name).isSome) :
    ∃ lifetime ∈ lifetimes.tensors, lifetime.name = name := by
  obtain ⟨tensor, found⟩ := Option.isSome_iff_exists.mp declared
  obtain ⟨member, rfl⟩ := Graph.tensor?_eq_some found
  have listed : tensor.name ∈ lifetimes.tensors.map Lifetime.name :=
    exact.names ▸ List.mem_map_of_mem member
  exact List.mem_map.mp listed

theorem exists_of_role (exact : lifetimes.Exact graph) {name : String} {role : Role}
    (known : graph.role? name = some role) :
    ∃ lifetime ∈ lifetimes.tensors, lifetime.name = name := by
  obtain ⟨tensor, found, _⟩ := Option.map_eq_some_iff.mp known
  exact exact.exists_of_tensor? (found ▸ rfl)

theorem exists_of_reads (exact : lifetimes.Exact graph) {step : Nat} {name : String}
    (reads : graph.Reads step name) : ∃ lifetime ∈ lifetimes.tensors, lifetime.name = name := by
  obtain ⟨role, known⟩ := exact.reads step name reads
  exact exact.exists_of_role known

theorem exists_of_writes (exact : lifetimes.Exact graph) {step : Nat} {name : String}
    (writes : graph.Writes step name) : ∃ lifetime ∈ lifetimes.tensors, lifetime.name = name :=
  exact.exists_of_role (exact.writes step name writes)

/-- No step reads what it writes. -/
theorem not_reads_of_writes (exact : lifetimes.Exact graph) {step : Nat} {name : String}
    (writes : graph.Writes step name) : ¬ graph.Reads step name := by
  obtain ⟨lifetime, member, rfl⟩ := exact.exists_of_writes writes
  exact (exact.exact_of_mem member).not_reads_of_writes writes

/-- No tensor is written twice. -/
theorem outputs_nodup (exact : lifetimes.Exact graph) :
    (graph.operators.flatMap Operator.outputs).Nodup := by
  rw [List.nodup_flatMap]
  refine ⟨exact.outputs, List.pairwise_iff_getElem.mpr ?_⟩
  intro i j boundLeft boundRight below name left right
  have writesLeft : graph.Writes i name := ⟨_, List.getElem?_eq_getElem boundLeft, left⟩
  have writesRight : graph.Writes j name := ⟨_, List.getElem?_eq_getElem boundRight, right⟩
  obtain ⟨lifetime, member, rfl⟩ := exact.exists_of_writes writesLeft
  have known := exact.exact_of_mem member
  have := known.start_of_writes writesLeft
  have := known.start_of_writes writesRight
  omega

theorem mem_outputs_iff (exact : lifetimes.Exact graph) {name : String} :
    name ∈ graph.operators.flatMap Operator.outputs ↔
      name ∈ graph.tensors.map Tensor.name ∧ graph.role? name = some .intermediate := by
  rw [Graph.mem_outputs_iff_writes, ← exact.names]
  constructor
  · rintro ⟨step, writes⟩
    obtain ⟨lifetime, member, rfl⟩ := exact.exists_of_writes writes
    exact ⟨List.mem_map_of_mem member, exact.writes step _ writes⟩
  · rintro ⟨listed, role⟩
    obtain ⟨lifetime, member, rfl⟩ := List.mem_map.mp listed
    have known := exact.exact_of_mem member
    have intermediate : lifetime.role = .intermediate :=
      Option.some.inj (known.role.symm.trans role)
    obtain ⟨step, produced⟩ := Option.isSome_iff_exists.mp (known.intermediate.mp intermediate)
    exact ⟨step, (known.producer step).mp produced⟩

end Lifetimes.Exact

end TensorArena
