import TensorArena.Program.Execution
import TensorArena.Proofs.Arena.Addresses

/-!
# Operators over one arena

An operator is a function from the contents of its inputs to the bytes of its outputs. It can be
run over one memory, where it reads the slots of its inputs and overwrites the slots of its
outputs, or over private buffers, one for each tensor.
-/

set_option autoImplicit false

namespace TensorArena

/-- What the operators compute and what the outside supplies. -/
structure Meaning where
  /-- The bytes of each output, by the operator's position, the contents of its inputs, the place
  of the output in its list and the place of the byte. -/
  compute : Nat → List (List UInt8) → Nat → Nat → UInt8
  /-- The bytes that the caller gives to the inputs of the graph. -/
  given : String → Nat → UInt8
  /-- The contents of the tensors outside the arena. -/
  constants : String → List UInt8

namespace Graph

def byteLength (graph : Graph) (name : String) : Nat :=
  ((graph.tensor? name).bind Tensor.byteLength?).getD 0

/-- As many bytes as a tensor has. -/
def contents (graph : Graph) (name : String) (bytes : Nat → UInt8) : List UInt8 :=
  (List.range (graph.byteLength name)).map bytes

/-! ### Private buffers -/

/-- The buffers before the first operator. -/
def entryBuffers (graph : Graph) (meaning : Meaning) (name : String) : List UInt8 :=
  match graph.role? name with
  | some .constant => meaning.constants name
  | some .input => graph.contents name (meaning.given name)
  | _ => []

/-- The buffers when the first operators have run in their order. -/
def buffersAfter (graph : Graph) (meaning : Meaning) : Nat → String → List UInt8
  | 0 => graph.entryBuffers meaning
  | step + 1 => fun name =>
    let before := graph.buffersAfter meaning step
    match graph.operators[step]? with
    | none => before name
    | some operator =>
      match operator.outputs.idxOf? name with
      | none => before name
      | some port =>
        graph.contents name (meaning.compute step (operator.inputs.map before) port)

/-- The value of a tensor when all operators have run. -/
def value (graph : Graph) (meaning : Meaning) (name : String) : List UInt8 :=
  graph.buffersAfter meaning graph.operators.length name

end Graph

/-! ### One memory -/

/-- The memory around the arena, and what each operator that has run found in its inputs. -/
structure Machine where
  memory : Nat → UInt8
  log : List (Nat × List (List UInt8)) := []

/-- Overwrites the whole slot. -/
def writeSlot (slot : Storage × (Nat → UInt8)) (memory : Nat → UInt8) : Nat → UInt8 :=
  match slot.1 with
  | .arena offset size => fun address =>
    if offset ≤ address ∧ address < offset + size then slot.2 (address - offset)
    else memory address
  | .rom => memory

def writeSlots (slots : List (Storage × (Nat → UInt8))) (memory : Nat → UInt8) : Nat → UInt8 :=
  slots.foldl (fun memory slot => writeSlot slot memory) memory

namespace Graph

def read (graph : Graph) (meaning : Meaning) (memory : Nat → UInt8) (handle : Handle) :
    List UInt8 :=
  match handle.storage with
  | .arena offset _ => graph.contents handle.name fun index => memory (offset + index)
  | .rom => meaning.constants handle.name

/-- The kernel of an operator over the memory. -/
def arenaKernel (graph : Graph) (meaning : Meaning) (position : Nat) (symbol : String) :
    Kernel Machine where
  name := symbol
  execute inputs outputs machine :=
    let found := inputs.map (graph.read meaning machine.memory)
    (.ok (), {
      memory := writeSlots (outputs.zipIdx.map fun output =>
        (output.1.storage, meaning.compute position found output.2)) machine.memory
      log := machine.log ++ [(position, found)] })

end Graph

/-- The memory after the caller has filled the slots of the inputs. -/
def Plan.load (plan : Plan) (meaning : Meaning) (memory : Nat → UInt8) : Nat → UInt8 :=
  writeSlots ((plan.entries.filter fun entry => entry.role = .input).map fun entry =>
    (entry.storage, meaning.given entry.name)) memory

/-! ### Writing and reading -/

theorem writeSlot_of_not_covers {slot : Storage × (Nat → UInt8)} {memory : Nat → UInt8}
    {address : Nat} (outside : ¬ slot.1.Covers address) :
    writeSlot slot memory address = memory address := by
  obtain ⟨storage, bytes⟩ := slot
  cases storage with
  | rom => rfl
  | arena offset size => exact if_neg outside

theorem writeSlots_of_not_covers {slots : List (Storage × (Nat → UInt8))} {memory : Nat → UInt8}
    {address : Nat} (outside : ∀ slot ∈ slots, ¬ slot.1.Covers address) :
    writeSlots slots memory address = memory address := by
  induction slots generalizing memory with
  | nil => rfl
  | cons slot rest ih =>
    unfold writeSlots at ih ⊢
    rw [List.foldl_cons, ih fun other member => outside other (by simp [member])]
    exact writeSlot_of_not_covers (outside slot (by simp))

/-- What is written into one of several separate slots stays there. -/
theorem writeSlots_of_mem {slots : List (Storage × (Nat → UInt8))} {memory bytes : Nat → UInt8}
    {offset size index : Nat}
    (apart : slots.Pairwise fun left right =>
      ∀ address, left.1.Covers address → ¬ right.1.Covers address)
    (member : (Storage.arena offset size, bytes) ∈ slots) (inside : index < size) :
    writeSlots slots memory (offset + index) = bytes index := by
  have covers : (Storage.arena offset size).Covers (offset + index) := by
    unfold Storage.Covers
    omega
  induction slots generalizing memory with
  | nil => cases member
  | cons slot rest ih =>
    obtain ⟨separate, others⟩ := List.pairwise_cons.mp apart
    rcases List.mem_cons.mp member with rfl | member
    · have kept : ∀ memory : Nat → UInt8,
          writeSlots rest memory (offset + index) = memory (offset + index) :=
        fun _ => writeSlots_of_not_covers fun other listed => separate other listed _ covers
      unfold writeSlots at kept ⊢
      rw [List.foldl_cons, kept]
      exact (if_pos covers).trans (congrArg bytes (Nat.add_sub_cancel_left offset index))
    · exact ih others member

namespace Graph

/-- Two memories with the same bytes in the slot have the same contents there. -/
theorem read_congr {graph : Graph} {meaning : Meaning} {left right : Nat → UInt8} {handle : Handle}
    (fits : ∀ offset size, handle.storage = .arena offset size →
      graph.byteLength handle.name ≤ size)
    (same : ∀ address, handle.storage.Covers address → left address = right address) :
    graph.read meaning left handle = graph.read meaning right handle := by
  unfold read
  cases storage : handle.storage with
  | rom => rfl
  | arena offset size =>
    have room := fits offset size storage
    rw [storage] at same
    unfold contents
    apply List.map_congr_left
    intro index member
    rw [List.mem_range] at member
    refine same _ ?_
    unfold Storage.Covers
    omega

end Graph

end TensorArena
