import TensorArena.Proofs.Arena.Tracking

/-!
# The moves of the planner

The planner makes its moves in an order that the graph alone determines: it places the tensors that
are there from the beginning, and then at every step it places the outputs, counts the inputs and
lets go of the outputs that nobody reads. A plan is what a run of these moves leaves behind.
-/

set_option autoImplicit false

namespace TensorArena

/-- What the planner does to its state at a time. -/
inductive Move where
  /-- Gives the tensor at a position its storage. -/
  | place (position : Nat) (tensor : Tensor)
  /-- Counts a step as a reader of a tensor, and releases the tensor after the last one. -/
  | read (step position : Nat) (name : String)
  /-- Releases an output of a step if nobody reads it. -/
  | drop (step position : Nat) (name : String)
deriving DecidableEq

/-- The state after a move. -/
def PlannerState.move (graph : Graph) (lifetimes : Lifetimes) (options : ArenaOptions)
    (state : PlannerState) : Move → Except PlanError PlannerState
  | .place position tensor => state.place lifetimes options position tensor
  | .read step position name =>
    .ok ((state.countRead position).releaseUnread graph step position name)
  | .drop step position name => .ok (state.releaseUnread graph step position name)

namespace Graph

/-- The tensors among the given ones that are there before the first step, in order. -/
def entryMoves (graph : Graph) (position : Nat) (tensors : List Tensor) : List Move :=
  ((tensors.zipIdx position).filter fun tensor =>
    graph.role? tensor.1.name ≠ some .intermediate).map fun tensor => .place tensor.2 tensor.1

def placeMoves (graph : Graph) (names : List String) : List Move :=
  names.filterMap fun name => (graph.position? name).bind fun position =>
    (graph.tensors[position]?).map (.place position)

/-- Every tensor is counted once, however often it is read. -/
def readMoves (graph : Graph) (step : Nat) : List Nat → List String → List Move
  | _, [] => []
  | seen, name :: rest =>
    match graph.position? name with
    | none => graph.readMoves step seen rest
    | some position =>
      if seen.contains position then graph.readMoves step seen rest
      else .read step position name :: graph.readMoves step (position :: seen) rest

def dropMoves (graph : Graph) (step : Nat) (names : List String) : List Move :=
  names.filterMap fun name => (graph.position? name).map fun position => .drop step position name

def stepMoves (graph : Graph) (step : Nat) (operator : Operator) : List Move :=
  graph.placeMoves operator.outputs ++
    (graph.readMoves step [] operator.inputs ++ graph.dropMoves step operator.outputs)

def movesFrom (graph : Graph) : Nat → List Operator → List Move
  | _, [] => []
  | step, operator :: rest => graph.stepMoves step operator ++ graph.movesFrom (step + 1) rest

/-- All moves of the planner in their order. -/
def moves (graph : Graph) : List Move :=
  graph.entryMoves 0 graph.tensors ++ graph.movesFrom 0 graph.operators

/-- In this state the planner comes to make this move. -/
def Makes (graph : Graph) (lifetimes : Lifetimes) (options : ArenaOptions) (state : PlannerState)
    (move : Move) : Prop :=
  ∃ initial done rest, graph.initialState lifetimes = .ok initial ∧
    graph.moves = done ++ move :: rest ∧
    done.foldlM (PlannerState.move graph lifetimes options) initial = .ok state

/-- The plan that is read off the state after the last move. -/
def conclude (graph : Graph) (options : ArenaOptions) (state : PlannerState) :
    Except PlanError Plan := do
  return { entries := ← collectEntries graph.tensors state.entries
           arenaSize := state.arenaEnd
           alignment := options.grain }

/-- The plan by a run of the moves. -/
def planByMoves (graph : Graph) (lifetimes : Lifetimes) (options : ArenaOptions) :
    Except PlanError Plan := do
  let initial ← graph.initialState lifetimes
  let final ← graph.moves.foldlM (PlannerState.move graph lifetimes options) initial
  graph.conclude options final

variable {graph : Graph} {lifetimes : Lifetimes} {options : ArenaOptions} {step : Nat}

/-! ### Lists of moves -/

theorem entryMoves_cons (exact : lifetimes.Exact graph) {position : Nat} {tensor : Tensor}
    {lifetime : Lifetime} (declares : graph.Declares lifetimes position tensor lifetime)
    (others : List Tensor) :
    graph.entryMoves position (tensor :: others) =
      if lifetime.role = .intermediate then graph.entryMoves (position + 1) others
      else .place position tensor :: graph.entryMoves (position + 1) others := by
  obtain ⟨named, known⟩ := declares.pair exact
  have role : graph.role? tensor.name = some lifetime.role := named ▸ known.role
  unfold entryMoves
  rw [List.zipIdx_cons, List.filter_cons]
  by_cases intermediate : lifetime.role = .intermediate <;> simp [role, intermediate]

theorem placeMoves_cons {name : String} {position : Nat} {tensor : Tensor}
    (found : graph.position? name = some position)
    (present : graph.tensors[position]? = some tensor)
    (rest : List String) :
    graph.placeMoves (name :: rest) = .place position tensor :: graph.placeMoves rest := by
  simp [placeMoves, found, present]

theorem dropMoves_cons {name : String} {position : Nat}
    (found : graph.position? name = some position) (rest : List String) :
    graph.dropMoves step (name :: rest) =
      .drop step position name :: graph.dropMoves step rest := by
  simp [dropMoves, found]

/-! ### The walk as a run -/

theorem exists_position? (exact : lifetimes.Exact graph) {name : String}
    (analysed : ∃ lifetime ∈ lifetimes.tensors, lifetime.name = name) :
    ∃ position tensor lifetime, graph.position? name = some position ∧
      graph.Declares lifetimes position tensor lifetime ∧ lifetime.name = name := by
  cases found : graph.position? name with
  | some position =>
    obtain ⟨tensor, lifetime, declares, named⟩ := exact.declares_of_position? found
    exact ⟨position, tensor, lifetime, rfl, declares, named⟩
  | none =>
    obtain ⟨lifetime, member, rfl⟩ := analysed
    have known := (exact.exact_of_mem member).role
    rw [role?, position?_eq_none_iff.mp found] at known
    cases known

theorem placeEntry_eq (exact : lifetimes.Exact graph) {tensors : List Tensor} :
    ∀ {position : Nat} (state : PlannerState), graph.tensors.drop position = tensors →
      placeEntry lifetimes options position tensors state =
        (graph.entryMoves position tensors).foldlM (PlannerState.move graph lifetimes options)
          state := by
  induction tensors with
  | nil => exact fun _ _ => rfl
  | cons tensor others ih =>
    intro position state rest
    obtain ⟨present, next⟩ := of_drop_eq_cons rest
    obtain ⟨lifetime, declares⟩ := exact.declares_of_tensor present
    rw [entryMoves_cons exact declares]
    unfold placeEntry
    simp only [declares.get? exact]
    split
    · exact ih state next
    · rw [List.foldlM_cons]
      exact congrArg _ (funext fun middle => ih middle next)

theorem placeNamed_eq {name : String} {position : Nat} {tensor : Tensor}
    (found : graph.position? name = some position)
    (present : graph.tensors[position]? = some tensor)
    (state : PlannerState) :
    graph.placeNamed lifetimes options state name =
      state.move graph lifetimes options (.place position tensor) := by
  unfold placeNamed
  simp only [found, present]
  rfl

theorem placeOutputs_eq (exact : lifetimes.Exact graph) {names : List String}
    (writes : ∀ name ∈ names, graph.Writes step name) (state : PlannerState) :
    names.foldlM (graph.placeNamed lifetimes options) state =
      (graph.placeMoves names).foldlM (PlannerState.move graph lifetimes options) state := by
  induction names generalizing state with
  | nil => rfl
  | cons name rest ih =>
    obtain ⟨written, others⟩ := List.forall_mem_cons.mp writes
    obtain ⟨position, tensor, lifetime, found, declares, _⟩ :=
      exists_position? exact (exact.exists_of_writes written)
    rw [placeMoves_cons found declares.1, List.foldlM_cons, List.foldlM_cons,
      placeNamed_eq found declares.1]
    exact congrArg _ (funext fun middle => ih others middle)

theorem readInputs_eq (exact : lifetimes.Exact graph) {names : List String}
    (reads : ∀ name ∈ names, graph.Reads step name) :
    ∀ (seen : List Nat) (state : PlannerState),
      state.readInputs graph step seen names =
        (graph.readMoves step seen names).foldlM (PlannerState.move graph lifetimes options)
          state := by
  induction names with
  | nil => exact fun _ _ => rfl
  | cons name rest ih =>
    intro seen state
    obtain ⟨read, others⟩ := List.forall_mem_cons.mp reads
    obtain ⟨position, _, _, found, _⟩ := exists_position? exact (exact.exists_of_reads read)
    unfold PlannerState.readInputs readMoves
    simp only [found]
    split
    · exact ih others seen state
    · rw [List.foldlM_cons]
      exact ih others _ _

theorem dropUnread_eq (exact : lifetimes.Exact graph) {names : List String}
    (writes : ∀ name ∈ names, graph.Writes step name) (state : PlannerState) :
    state.dropUnread graph step names =
      (graph.dropMoves step names).foldlM (PlannerState.move graph lifetimes options) state := by
  induction names generalizing state with
  | nil => rfl
  | cons name rest ih =>
    obtain ⟨written, others⟩ := List.forall_mem_cons.mp writes
    obtain ⟨position, _, _, found, _⟩ := exists_position? exact (exact.exists_of_writes written)
    unfold PlannerState.dropUnread
    rw [dropMoves_cons found, List.foldlM_cons]
    simp only [found]
    exact ih others _

theorem planStep_eq (exact : lifetimes.Exact graph) {operator : Operator}
    (present : graph.operators[step]? = some operator) (state : PlannerState) :
    graph.planStep lifetimes options step operator state =
      (graph.stepMoves step operator).foldlM (PlannerState.move graph lifetimes options) state := by
  have writes : ∀ name ∈ operator.outputs, graph.Writes step name :=
    fun _ member => ⟨operator, present, member⟩
  have reads : ∀ name ∈ operator.inputs, graph.Reads step name :=
    fun _ member => ⟨operator, present, member⟩
  unfold planStep stepMoves
  rw [placeOutputs_eq exact writes, List.foldlM_append]
  refine congrArg _ (funext fun placed => ?_)
  rw [readInputs_eq exact reads, List.foldlM_append]
  exact congrArg _ (funext fun counted => dropUnread_eq exact writes counted)

theorem planSteps_eq (exact : lifetimes.Exact graph) {operators : List Operator} :
    ∀ {step : Nat} (state : PlannerState), graph.operators.drop step = operators →
      graph.planSteps lifetimes options step operators state =
        (graph.movesFrom step operators).foldlM (PlannerState.move graph lifetimes options)
          state := by
  induction operators with
  | nil => exact fun _ _ => rfl
  | cons operator others ih =>
    intro step state rest
    obtain ⟨present, next⟩ := of_drop_eq_cons rest
    unfold planSteps movesFrom
    rw [planStep_eq exact present, List.foldlM_append]
    exact congrArg _ (funext fun middle => ih middle next)

theorem walk_eq (exact : lifetimes.Exact graph) (initial : PlannerState) :
    (placeEntry lifetimes options 0 graph.tensors initial >>=
        graph.planSteps lifetimes options 0 graph.operators) =
      graph.moves.foldlM (PlannerState.move graph lifetimes options) initial := by
  rw [placeEntry_eq exact initial (List.drop_zero ..), moves, List.foldlM_append]
  exact congrArg _ (funext fun entered => planSteps_eq exact entered (List.drop_zero ..))

/-- A plan is what a run of the moves leaves behind. -/
theorem plan_eq_planByMoves (exact : lifetimes.Exact graph) (options : ArenaOptions) :
    graph.plan lifetimes options = graph.planByMoves lifetimes options := by
  unfold plan planByMoves
  refine congrArg _ (funext fun initial => ?_)
  rw [← walk_eq exact initial, bind_assoc]
  rfl

/-- The state that a plan is read off. -/
theorem exists_run_of_plan_eq_ok (exact : lifetimes.Exact graph) {plan : Plan}
    (success : graph.plan lifetimes options = .ok plan) :
    ∃ initial final, graph.initialState lifetimes = .ok initial ∧
      graph.moves.foldlM (PlannerState.move graph lifetimes options) initial = .ok final ∧
      final.arenaEnd = plan.arenaSize ∧
      collectEntries graph.tensors final.entries = .ok plan.entries := by
  rw [plan_eq_planByMoves exact] at success
  obtain ⟨initial, started, success⟩ := bind_eq_ok.mp success
  obtain ⟨final, walked, success⟩ := bind_eq_ok.mp success
  obtain ⟨entries, collected, success⟩ := bind_eq_ok.mp success
  obtain rfl := pure_eq_ok.mp success
  exact ⟨initial, final, started, walked, rfl, collected⟩

end Graph

end TensorArena
