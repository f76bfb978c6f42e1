import TensorArena.Proofs.Compile.Completeness
import TensorArena.Proofs.Memory.Machine

/-!
# The arena simulates private buffers

Before each step, the slot of every tensor that is live then holds what its private buffer holds.
A step overwrites the slots of its outputs only, and these are apart from the slots of all tensors
that are live with them.
-/

set_option autoImplicit false

namespace TensorArena

theorem ArenaOptions.le_alignUp? {options : ArenaOptions} {size aligned : Nat}
    (found : options.alignUp? size = some aligned) : size ≤ aligned := by
  unfold alignUp? at found
  obtain ⟨padded, isPadded, rfl⟩ := Option.map_eq_some_iff.mp found
  rw [(size?_eq_some_iff.mp isPadded).1]
  have : (size + (options.grain - 1)) &&& (options.grain - 1) ≤ options.grain - 1 :=
    Nat.and_le_right
  omega

namespace Graph

variable {graph : Graph} {lifetimes : Lifetimes} {options : ArenaOptions} {plan : Plan}
  {meaning : Meaning} {lifetime : Lifetime}

/-- A tensor outside the arena is a constant, any other one fits into its slot. -/
theorem Planned.handle (planned : graph.Planned lifetimes options plan)
    (member : lifetime ∈ lifetimes.tensors) :
    ∃ entry ∈ plan.entries, plan.entry? lifetime.name = some entry ∧
      plan.handle lifetime.name = ⟨lifetime.name, entry.storage⟩ ∧
      (lifetime.role = .constant → entry.storage = .rom) ∧
      (lifetime.role ≠ .constant → ∃ offset size, entry.storage = .arena offset size) ∧
      ∀ offset size, entry.storage = .arena offset size →
        graph.byteLength lifetime.name ≤ size := by
  obtain ⟨position, tensor, declares⟩ := planned.exact.declares_of_mem member
  obtain ⟨entry, found, records⟩ := planned.fits.records position tensor lifetime declares
  have listed := List.mem_of_getElem? found
  have isEntry := (planned.fits.entry?_eq_some_iff planned.exact).mpr ⟨listed, records.name⟩
  refine ⟨entry, listed, isEntry, ?_, records.constant, ?_, ?_⟩
  · rw [Plan.handle, isEntry]
    rfl
  · intro role
    obtain ⟨offset, size, storage, _⟩ := records.sized role
    exact ⟨offset, size, storage⟩
  · intro offset size storage
    have role : lifetime.role ≠ .constant := by
      intro constant
      rw [records.constant constant] at storage
      cases storage
    obtain ⟨_, _, same, sized⟩ := records.sized role
    rw [storage] at same
    obtain ⟨rfl, rfl⟩ := Storage.arena.inj same
    obtain ⟨bytes, isLength, aligned⟩ := Option.bind_eq_some_iff.mp sized
    have isTensor := tensor?_name planned.exact.distinct (List.mem_of_getElem? declares.1)
    rw [byteLength, (declares.pair planned.exact).1, isTensor, Option.bind_some, isLength]
    exact ArenaOptions.le_alignUp? aligned

/-! ### Private buffers -/

/-- A buffer that has been written is not written again. -/
theorem buffersAfter_eq (planned : graph.Planned lifetimes options plan)
    (member : lifetime ∈ lifetimes.tensors) {step later : Nat}
    (started : lifetime.interval.start ≤ step) (order : step ≤ later) :
    graph.buffersAfter meaning later lifetime.name =
      graph.buffersAfter meaning step lifetime.name := by
  induction later with
  | zero => rw [Nat.le_zero.mp order]
  | succ later ih =>
    rcases Nat.lt_or_ge later step with before | after
    · rw [Nat.le_antisymm order before]
    · rw [← ih after, buffersAfter]
      cases present : graph.operators[later]? with
      | none => rfl
      | some operator =>
        dsimp only
        have unwritten : lifetime.name ∉ operator.outputs := by
          intro written
          have := (planned.known member).start_of_writes ⟨operator, present, written⟩
          omega
        rw [List.idxOf?_eq_none_iff.mpr unwritten]

/-! ### Written slots -/

/-- What is written into the slots of the plan stays inside the arena. -/
theorem writeSlots_outside (planned : graph.Planned lifetimes options plan)
    {slots : List (Storage × (Nat → UInt8))} {memory : Nat → UInt8} {address : Nat}
    (known : ∀ slot ∈ slots, ∃ entry ∈ plan.entries, slot.1 = entry.storage)
    (beyond : plan.arenaSize ≤ address) : writeSlots slots memory address = memory address := by
  refine writeSlots_of_not_covers fun slot listed covers => ?_
  obtain ⟨entry, member, same⟩ := known slot listed
  rw [same] at covers
  have := planned.fits.inside entry member
  have := covers.lt_stop
  omega

/-- A tensor is read as it has been written into its slot. -/
theorem read_writeSlots (planned : graph.Planned lifetimes options plan)
    (member : lifetime ∈ lifetimes.tensors) (written : lifetime.role ≠ .constant)
    {slots : List (Storage × (Nat → UInt8))} {memory bytes : Nat → UInt8}
    (apart : slots.Pairwise fun left right =>
      ∀ address, left.1.Covers address → ¬ right.1.Covers address)
    (filled : ((plan.handle lifetime.name).storage, bytes) ∈ slots) :
    graph.read meaning (writeSlots slots memory) (plan.handle lifetime.name) =
      graph.contents lifetime.name bytes := by
  obtain ⟨entry, _, _, isHandle, _, sized, room⟩ := planned.handle member
  obtain ⟨offset, size, storage⟩ := sized written
  have fits := room offset size storage
  rw [isHandle] at filled ⊢
  rw [storage] at filled
  rw [read, storage]
  dsimp only
  unfold contents
  apply List.map_congr_left
  intro index inside
  rw [List.mem_range] at inside
  exact writeSlots_of_mem apart filled (by omega)

/-! ### The memory between two steps -/

/-- The memory holds the buffers of all tensors that are live before the step, the log is that of
the earlier steps, and nothing outside the arena has changed. -/
structure Simulates (graph : Graph) (lifetimes : Lifetimes) (plan : Plan) (meaning : Meaning)
    (background : Nat → UInt8) (step : Nat) (machine : Machine) : Prop where
  buffers : ∀ lifetime ∈ lifetimes.tensors, lifetime.interval.start ≤ step →
    step < lifetime.interval.stop →
    graph.read meaning machine.memory (plan.handle lifetime.name) =
      graph.buffersAfter meaning step lifetime.name
  log : machine.log = (graph.operators.take step).zipIdx.map fun operator =>
    (operator.2, operator.1.inputs.map (graph.buffersAfter meaning operator.2))
  outside : ∀ address, plan.arenaSize ≤ address → machine.memory address = background address

/-- The caller's inputs have separate slots. -/
theorem load_simulates (planned : graph.Planned lifetimes options plan)
    (background : Nat → UInt8) :
    graph.Simulates lifetimes plan meaning background 0 ⟨plan.load meaning background, []⟩ := by
  have inputs : ∀ entry ∈ plan.entries, entry.role = .input →
      entry.interval.contains 0 = true := by
    intro entry listed role
    obtain ⟨position, found⟩ := List.mem_iff_getElem?.mp listed
    obtain ⟨tensor, lifetime, declares, records⟩ :=
      planned.fits.declares_of_entry planned.exact found
    have start : lifetime.interval.start = 0 := by
      rw [(declares.pair planned.exact).2.start_eq_zero_iff, ← records.role, role]
      decide
    simp [Interval.contains, records.interval, start]
  have apart : ((plan.entries.filter fun entry => entry.role = .input).map fun entry =>
      (entry.storage, meaning.given entry.name)).Pairwise fun left right =>
        ∀ address, left.1.Covers address → ¬ right.1.Covers address := by
    rw [List.pairwise_map, List.pairwise_filter]
    refine (List.pairwise_filter.mp (planned.fits.pairwise_apart planned.exact 0)).imp_of_mem ?_
    intro left right inLeft inRight separate isLeft isRight
    exact separate (inputs left inLeft (by simpa using isLeft))
      (inputs right inRight (by simpa using isRight))
  refine ⟨?_, rfl, ?_⟩
  · intro lifetime member started _
    obtain ⟨entry, listed, isEntry, isHandle, constant, _⟩ := planned.handle member
    have known := planned.known member
    have role := known.start_eq_zero_iff.mp (Nat.le_zero.mp started)
    rw [buffersAfter, entryBuffers, known.role]
    cases isRole : lifetime.role with
    | intermediate => exact absurd isRole role
    | constant =>
      rw [isHandle, read, constant isRole]
    | input =>
      have filled : ((plan.handle lifetime.name).storage, meaning.given lifetime.name) ∈
          (plan.entries.filter fun entry => entry.role = .input).map fun entry =>
            (entry.storage, meaning.given entry.name) := by
        obtain ⟨other, _, isOther, named, sameRole, _⟩ := planned.entry member
        obtain rfl := Option.some.inj (isEntry.symm.trans isOther)
        refine List.mem_map.mpr ⟨entry, List.mem_filter.mpr ⟨listed, ?_⟩, ?_⟩
        · simp [sameRole, isRole]
        · rw [isHandle, named]
      exact read_writeSlots planned member (by rw [isRole]; decide) apart filled
  · intro address beyond
    refine writeSlots_outside planned ?_ beyond
    intro slot written
    obtain ⟨entry, listed, rfl⟩ := List.mem_map.mp written
    exact ⟨entry, (List.mem_filter.mp listed).1, rfl⟩

/-- The slots that an operator overwrites. -/
def outputSlots (plan : Plan) (meaning : Meaning) (step : Nat) (found : List (List UInt8))
    (operator : Operator) : List (Storage × (Nat → UInt8)) :=
  (operator.outputs.map plan.handle).zipIdx.map fun output =>
    (output.1.storage, meaning.compute step found output.2)

theorem outputSlots_apart (planned : graph.Planned lifetimes options plan) (meaning : Meaning)
    {step : Nat} {operator : Operator} (present : graph.operators[step]? = some operator)
    (found : List (List UInt8)) :
    (outputSlots plan meaning step found operator).Pairwise fun left right =>
      ∀ address, left.1.Covers address → ¬ right.1.Covers address := by
  unfold outputSlots
  rw [List.pairwise_map]
  have separate : (operator.outputs.map plan.handle).Pairwise fun left right =>
      ∀ address, left.storage.Covers address → ¬ right.storage.Covers address := by
    rw [List.pairwise_map]
    refine (planned.exact.outputs operator (List.mem_of_getElem? present)).imp_of_mem ?_
    intro left right inLeft inRight unlike
    have writesLeft : graph.Writes step left := ⟨operator, present, inLeft⟩
    have writesRight : graph.Writes step right := ⟨operator, present, inRight⟩
    obtain ⟨first, isFirst, rfl⟩ := planned.exact.exists_of_writes writesLeft
    obtain ⟨second, isSecond, rfl⟩ := planned.exact.exists_of_writes writesRight
    obtain ⟨firstEntry, _, foundFirst, handleFirst, _⟩ := planned.handle isFirst
    obtain ⟨secondEntry, _, foundSecond, handleSecond, _⟩ := planned.handle isSecond
    have startFirst := (planned.known isFirst).start_of_writes writesLeft
    have startSecond := (planned.known isSecond).start_of_writes writesRight
    have := (planned.known isFirst).start_le_stop
    have := (planned.known isSecond).start_le_stop
    rw [handleFirst, handleSecond]
    exact planned.apart isFirst isSecond foundFirst foundSecond unlike (step + 1)
      (by simp [Interval.contains]; omega) (by simp [Interval.contains]; omega)
  rw [List.pairwise_iff_getElem] at separate ⊢
  intro i j boundLeft boundRight below
  rw [List.getElem_zipIdx, List.getElem_zipIdx]
  exact separate i j (by simpa using boundLeft) (by simpa using boundRight) below

/-- A slot that is overwritten is the one of an output. -/
theorem exists_of_mem_outputSlots (planned : graph.Planned lifetimes options plan) {step : Nat}
    {operator : Operator} (present : graph.operators[step]? = some operator)
    {found : List (List UInt8)} {slot : Storage × (Nat → UInt8)}
    (member : slot ∈ outputSlots plan meaning step found operator) :
    ∃ output ∈ lifetimes.tensors, output.interval.start = step + 1 ∧
      ∃ entry ∈ plan.entries, plan.entry? output.name = some entry ∧ slot.1 = entry.storage := by
  obtain ⟨⟨handle, port⟩, listed, rfl⟩ := List.mem_map.mp member
  have atPort := List.mk_mem_zipIdx_iff_getElem?.mp listed
  obtain ⟨name, isOutput, rfl⟩ := List.mem_map.mp (List.mem_of_getElem? atPort)
  have writes : graph.Writes step name := ⟨operator, present, isOutput⟩
  obtain ⟨output, isTensor, rfl⟩ := planned.exact.exists_of_writes writes
  obtain ⟨entry, isListed, isEntry, isHandle, _⟩ := planned.handle isTensor
  refine ⟨output, isTensor, (planned.known isTensor).start_of_writes writes, entry, isListed,
    isEntry, ?_⟩
  rw [isHandle]

/-- The operator of a step leaves the tensors alone that were there before and are still needed. -/
theorem read_outputSlots_of_start_le (planned : graph.Planned lifetimes options plan)
    {step : Nat} {operator : Operator} (present : graph.operators[step]? = some operator)
    (found : List (List UInt8)) {memory : Nat → UInt8} (member : lifetime ∈ lifetimes.tensors)
    (started : lifetime.interval.start ≤ step) (needed : step < lifetime.interval.stop) :
    graph.read meaning (writeSlots (outputSlots plan meaning step found operator) memory)
        (plan.handle lifetime.name) =
      graph.read meaning memory (plan.handle lifetime.name) := by
  obtain ⟨entry, _, isEntry, isHandle, _, _, room⟩ := planned.handle member
  rw [isHandle]
  refine read_congr room fun address covers => ?_
  refine writeSlots_of_not_covers fun slot listed covered => ?_
  obtain ⟨output, isTensor, start, otherEntry, _, isOther, same⟩ :=
    exists_of_mem_outputSlots planned present listed
  rw [same] at covered
  have := (planned.known isTensor).start_le_stop
  have unlike : lifetime.name ≠ output.name := by
    intro named
    rw [planned.eq_of_name_eq member isTensor named] at started
    omega
  exact planned.apart member isTensor isEntry isOther unlike (step + 1)
    (by simp [Interval.contains]; omega) (by simp [Interval.contains]; omega) address covers
    covered

/-- The operator of a step fills the slots of its outputs. -/
theorem read_outputSlots_of_port (planned : graph.Planned lifetimes options plan) {step : Nat}
    {operator : Operator} (present : graph.operators[step]? = some operator)
    (found : List (List UInt8)) {memory : Nat → UInt8} (member : lifetime ∈ lifetimes.tensors)
    {port : Nat} (isPort : operator.outputs.idxOf? lifetime.name = some port) :
    graph.read meaning (writeSlots (outputSlots plan meaning step found operator) memory)
        (plan.handle lifetime.name) =
      graph.contents lifetime.name (meaning.compute step found port) := by
  obtain ⟨bound, named, _⟩ := List.findIdx?_eq_some_iff_getElem.mp isPort
  have isName : operator.outputs[port] = lifetime.name := by simpa using named
  have writes : graph.Writes step lifetime.name :=
    ⟨operator, present, isName ▸ List.getElem_mem bound⟩
  have known := planned.known member
  have intermediate : lifetime.role = .intermediate :=
    known.intermediate.mpr ((known.producer step).mpr writes ▸ rfl)
  have filled : ((plan.handle lifetime.name).storage, meaning.compute step found port) ∈
      outputSlots plan meaning step found operator := by
    refine List.mem_map.mpr ⟨(plan.handle lifetime.name, port), ?_, rfl⟩
    rw [List.mk_mem_zipIdx_iff_getElem?, List.getElem?_map, List.getElem?_eq_getElem bound, isName]
    rfl
  exact read_writeSlots planned member (by rw [intermediate]; decide)
    (outputSlots_apart planned meaning present found) filled

/-- The inputs of an operator hold the contents of their buffers. -/
theorem Simulates.inputs (planned : graph.Planned lifetimes options plan)
    {background : Nat → UInt8} {step : Nat} {machine : Machine}
    (simulates : graph.Simulates lifetimes plan meaning background step machine)
    {operator : Operator} (present : graph.operators[step]? = some operator) :
    (operator.inputs.map plan.handle).map (graph.read meaning machine.memory) =
      operator.inputs.map (graph.buffersAfter meaning step) := by
  rw [List.map_map]
  apply List.map_congr_left
  intro name read
  have reads : graph.Reads step name := ⟨operator, present, read⟩
  obtain ⟨lifetime, member, rfl⟩ := planned.exact.exists_of_reads reads
  exact simulates.buffers lifetime member ((planned.known member).start_le_of_reads reads)
    ((planned.known member).lt_stop_of_reads reads)

/-- An operator finds the buffers of its inputs in their slots, and leaves those of its outputs. -/
theorem Simulates.step (planned : graph.Planned lifetimes options plan)
    {background : Nat → UInt8} {step : Nat} {machine : Machine}
    (simulates : graph.Simulates lifetimes plan meaning background step machine)
    {operator : Operator} (present : graph.operators[step]? = some operator) (symbol : String) :
    graph.Simulates lifetimes plan meaning background (step + 1)
      ((graph.arenaKernel meaning step symbol).execute (operator.inputs.map plan.handle)
        (operator.outputs.map plan.handle) machine).2 := by
  have inside := (List.getElem?_eq_some_iff.mp present).1
  unfold arenaKernel
  dsimp only
  rw [simulates.inputs planned present]
  refine ⟨?_, ?_, ?_⟩
  · intro lifetime member started unfinished
    rw [buffersAfter, present]
    dsimp only
    cases isPort : operator.outputs.idxOf? lifetime.name with
    | none =>
      have unwritten := List.idxOf?_eq_none_iff.mp isPort
      have earlier : lifetime.interval.start ≤ step :=
        (((planned.known member).started_iff present).mpr started).resolve_right unwritten
      have needed : step < lifetime.interval.stop := by omega
      exact (read_outputSlots_of_start_le planned present _ member earlier needed).trans
        (simulates.buffers lifetime member earlier needed)
    | some port => exact read_outputSlots_of_port planned present _ member isPort
  · rw [List.take_add_one, present, simulates.log, List.zipIdx_append, List.map_append]
    simp [Nat.min_eq_left (Nat.le_of_lt inside)]
  · intro address beyond
    refine (writeSlots_outside planned ?_ beyond).trans (simulates.outside address beyond)
    intro slot listed
    obtain ⟨_, _, _, entry, isListed, _, same⟩ := exists_of_mem_outputSlots planned present listed
    exact ⟨entry, isListed, same⟩

/-! ### Whole programs -/

theorem worldAfter_simulates {catalog : Catalog} {table : InstanceTable}
    {background : Nat → UInt8} (sound : Launch.Sound options catalog
      ⟨graph, lifetimes, plan, table, graph.arenaKernel meaning,
        ⟨plan.load meaning background, []⟩⟩) {step : Nat}
    (inside : step ≤ graph.operators.length) :
    graph.Simulates lifetimes plan meaning background step
      (Launch.worldAfter ⟨graph, lifetimes, plan, table, graph.arenaKernel meaning,
        ⟨plan.load meaning background, []⟩⟩ step) := by
  induction step with
  | zero => exact load_simulates sound.planned background
  | succ step ih =>
    obtain ⟨operator, shared, present, _, _, evaluation⟩ := sound.ready.evaluation? inside
    rw [Launch.worldAfter, evaluation]
    exact (ih (Nat.le_of_succ_le inside)).step sound.planned present shared.symbol

/-- Sharing one arena preserves the meaning of a graph. When the program of a compiled graph runs
over one memory, every operator runs once, in the order of the graph, and finds in the slots of its
inputs what it would find in private buffers. At the end the slots of the outputs hold their values,
and the memory outside the arena is as it was. -/
theorem compile_preserves_meaning (graph : Graph) (catalog : Catalog) (settings : Settings)
    (model : Model) (compiled : graph.compile catalog settings = .ok model) (meaning : Meaning)
    (background : Nat → UInt8) :
    ∃ context, graph.execute model.plan model.table (graph.arenaKernel meaning)
        ⟨model.plan.load meaning background, []⟩ model.steps = .ok context ∧
      context.world.log = (graph.operators.zipIdx.map fun operator =>
        (operator.2, operator.1.inputs.map (graph.value meaning))) ∧
      (∀ name ∈ graph.outputs,
        graph.read meaning context.world.memory (model.plan.handle name) =
          graph.value meaning name) ∧
      ∀ address, model.plan.arenaSize ≤ address →
        context.world.memory address = background address := by
  have stages := compile_eq_ok_iff.mp compiled
  obtain ⟨distinct, declared⟩ := validate_eq_ok stages.valid
  have planned := Planned.of_eq_ok stages.analysed stages.planned
  have sound : Launch.Sound settings.arenaOptions catalog
      ⟨graph, model.lifetimes, model.plan, model.table, graph.arenaKernel meaning,
        ⟨model.plan.load meaning background, []⟩⟩ :=
    ⟨planned, shareInstances_eq_ok stages.shared, fun _ _ _ _ _ => rfl⟩
  obtain ⟨steps, assembled, _, context, executed, _, _, _, world, _⟩ :=
    Launch.assemble_executes sound distinct declared settings.batching
  obtain rfl := Except.ok.inj (stages.assembled.symm.trans assembled)
  have simulates := worldAfter_simulates sound (Nat.le_refl _)
  rw [← world] at simulates
  refine ⟨context, executed, ?_, ?_, simulates.outside⟩
  · rw [simulates.log, List.take_length]
    apply List.map_congr_left
    rintro ⟨operator, step⟩ listed
    have present := List.mk_mem_zipIdx_iff_getElem?.mp listed
    dsimp only
    congr 1
    apply List.map_congr_left
    intro name read
    have reads : graph.Reads step name := ⟨operator, present, read⟩
    obtain ⟨lifetime, member, rfl⟩ := planned.exact.exists_of_reads reads
    exact (buffersAfter_eq planned member ((planned.known member).start_le_of_reads reads)
      (Nat.le_of_lt reads.lt_length)).symm
  · intro name output
    obtain ⟨lifetime, member, rfl⟩ := planned.exact.exists_of_tensor? (declared name output)
    have known := planned.known member
    have isOutput : lifetime.isOutput = true := by
      rw [known.isOutput, Graph.isOutput]
      simpa using output
    refine simulates.buffers lifetime member known.start_le_length ?_
    rw [known.stop_of_output isOutput]
    exact Nat.lt_succ_self _

/-- Every operator adds up its inputs byte by byte. -/
def addition : Meaning where
  compute _ contents _ index := (contents.map fun bytes => bytes.getD index 0).foldl (· + ·) 0
  given _ index := UInt8.ofNat index
  constants _ := [1, 2, 3, 4]

theorem relay_preserves_meaning :
    ∃ model context, relay.compile .standard {} = .ok model ∧
      relay.execute model.plan model.table (relay.arenaKernel addition)
        ⟨model.plan.load addition fun _ => 0, []⟩ model.steps = .ok context ∧
      relay.read addition context.world.memory (model.plan.handle "y") = [2, 6, 10, 14] := by
  obtain ⟨model, stages, _⟩ := @exists_compiled relay .standard {} _ _ _ rfl rfl rfl rfl rfl
  have compiled := compile_eq_ok_iff.mpr stages
  obtain ⟨context, executed, _, outputs, _⟩ :=
    compile_preserves_meaning relay .standard {} model compiled addition fun _ => 0
  exact ⟨model, context, compiled, executed, outputs "y" (by decide)⟩

end Graph

end TensorArena
