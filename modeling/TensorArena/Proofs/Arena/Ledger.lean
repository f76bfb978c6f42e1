import Mathlib.Logic.Function.Basic
import TensorArena.Proofs.Arena.Layout

/-!
# The planner by names

The planner keeps its notes by the positions of the tensors. A ledger keeps the same notes by their
names, and the moves of the planner do to the one what they do to the other. So a plan depends on
the positions only as far as the order of the moves does.
-/

set_option autoImplicit false

namespace TensorArena

/-- The notes of the planner by names. The lists in the state of the arena are not used. -/
structure Ledger where
  arena : PlannerState
  entry : String → Option PlanEntry
  remaining : String → Nat

namespace Ledger

def initial (lifetimes : Lifetimes) : Ledger where
  arena := ⟨[], 0, [], [], []⟩
  entry _ := none
  remaining name := ((lifetimes.get? name).map fun lifetime => lifetime.consumers.length).getD 0

def note (tensor : Tensor) (lifetime : Lifetime) (storage : Storage) (available : Option Nat)
    (ledger : Ledger) : Ledger :=
  { ledger with
    entry := Function.update ledger.entry tensor.name (some ⟨tensor.name, lifetime.role, storage,
      lifetime.refcount, lifetime.interval, available, none⟩) }

def place (lifetimes : Lifetimes) (options : ArenaOptions) (tensor : Tensor) (ledger : Ledger) :
    Except PlanError Ledger := do
  let some lifetime := lifetimes.get? tensor.name | .error (.missingLifetime tensor.name)
  if lifetime.role = .constant then .ok (ledger.note tensor lifetime .rom none)
  else
    match tensor.byteLength?.bind options.alignUp? with
    | none => .error (.sizeOverflow tensor.name)
    | some size => do
      let (taken, arena) ← ledger.arena.allocate options tensor.name size
      .ok ({ ledger with arena }.note tensor lifetime (.arena taken.1 size) taken.2)

def release (name : String) (step : Nat) (ledger : Ledger) : Ledger :=
  match ledger.entry name with
  | none => ledger
  | some entry =>
    let noted := Function.update ledger.entry name (some { entry with releasedAfter := some step })
    match entry.storage with
    | .rom => { ledger with entry := noted }
    | .arena offset size =>
      { ledger with
        arena := { ledger.arena with
          held := ledger.arena.held.filter fun holding => holding.name ≠ entry.name
          gaps := Gaps.release ⟨offset, size, step⟩ ledger.arena.gaps }
        entry := noted }

def releaseUnread (graph : Graph) (step : Nat) (name : String) (ledger : Ledger) : Ledger :=
  if ledger.remaining name = 0 && !graph.isOutput name then ledger.release name step else ledger

def countRead (name : String) (ledger : Ledger) : Ledger :=
  { ledger with remaining := Function.update ledger.remaining name (ledger.remaining name - 1) }

/-- The ledger after a move of the planner, whose position does not matter. -/
def move (graph : Graph) (lifetimes : Lifetimes) (options : ArenaOptions) (ledger : Ledger) :
    Move → Except PlanError Ledger
  | .place _ tensor => ledger.place lifetimes options tensor
  | .read step _ name => .ok ((ledger.countRead name).releaseUnread graph step name)
  | .drop step _ name => .ok (ledger.releaseUnread graph step name)

/-- The state of the planner that has the same notes. -/
def state (graph : Graph) (ledger : Ledger) : PlannerState :=
  { ledger.arena with
    entries := graph.tensors.map fun tensor => ledger.entry tensor.name
    remaining := graph.tensors.map fun tensor => ledger.remaining tensor.name }

end Ledger

/-- The position of a move is that of the tensor it names. -/
def Move.Of (graph : Graph) : Move → Prop
  | .place position tensor => graph.tensors[position]? = some tensor
  | .read _ position name | .drop _ position name =>
    ∃ tensor, graph.tensors[position]? = some tensor ∧ tensor.name = name

/-! ### Notes at a position and under a name -/

section

variable {β : Type} {tensors : List Tensor} {position : Nat} {tensor : Tensor}

theorem map_update_name (distinct : (tensors.map Tensor.name).Nodup)
    (present : tensors[position]? = some tensor) (notes : String → β) (value : β) :
    (tensors.map fun other => Function.update notes tensor.name value other.name) =
      (tensors.map fun other => notes other.name).set position value := by
  apply List.ext_getElem?
  intro index
  rw [List.getElem?_set, List.getElem?_map, List.getElem?_map, List.length_map]
  obtain ⟨inside, rfl⟩ := List.getElem?_eq_some_iff.mp present
  by_cases same : position = index
  · subst same
    simp [inside]
  · cases found : tensors[index]? with
    | none => simp [same]
    | some other =>
      have unlike : other.name ≠ tensors[position].name := fun named =>
        same (index_eq_of_name_eq Tensor.name distinct present found named.symm)
      simp [same, Function.update_of_ne unlike]

end

variable {graph : Graph} {lifetimes : Lifetimes} {options : ArenaOptions}

namespace Ledger

variable {position : Nat} {tensor : Tensor}

theorem allocate_state (ledger : Ledger) (name : String) (size : Nat) :
    (ledger.state graph).allocate options name size =
      (ledger.arena.allocate options name size).map fun taken =>
        (taken.1, { ledger with arena := taken.2 }.state graph) := by
  unfold PlannerState.allocate state
  dsimp only
  cases Gaps.firstFit? size ledger.arena.gaps with
  | some found => rfl
  | none =>
    dsimp only
    split
    · rfl
    · split
      · rfl
      · split <;> rfl

section

variable (distinct : (graph.tensors.map Tensor.name).Nodup)
  (present : graph.tensors[position]? = some tensor)

include distinct present

theorem note_state (ledger : Ledger) (lifetime : Lifetime) (storage : Storage)
    (available : Option Nat) :
    (ledger.note tensor lifetime storage available).state graph =
      (ledger.state graph).noteEntry position tensor lifetime storage available := by
  unfold note state PlannerState.noteEntry
  dsimp only
  rw [map_update_name distinct present]

theorem place_state (ledger : Ledger) :
    (ledger.state graph).place lifetimes options position tensor =
      (ledger.place lifetimes options tensor).map (state graph) := by
  unfold place
  cases found : lifetimes.get? tensor.name with
  | none =>
    unfold PlannerState.place
    rw [found]
    rfl
  | some lifetime =>
    dsimp only
    split
    · rename_i constant
      rw [PlannerState.place_constant found constant, ← note_state distinct present]
      rfl
    · rename_i held
      rw [PlannerState.place_slot found held]
      cases tensor.byteLength?.bind options.alignUp? with
      | none => rfl
      | some size =>
        dsimp only
        rw [allocate_state]
        cases ledger.arena.allocate options tensor.name size with
        | error error => rfl
        | ok taken => exact congrArg Except.ok (note_state distinct present _ _ _ _).symm

theorem release_state (ledger : Ledger) (step : Nat) :
    (ledger.state graph).release position step = (ledger.release tensor.name step).state graph := by
  have held : (ledger.state graph).entries[position]? = some (ledger.entry tensor.name) := by
    simp [state, present]
  unfold PlannerState.release release
  rw [held]
  cases ledger.entry tensor.name with
  | none => rfl
  | some entry =>
    dsimp only
    cases entry.storage <;> simp only [state, map_update_name distinct present]

theorem countRead_state (ledger : Ledger) :
    (ledger.state graph).countRead position = (ledger.countRead tensor.name).state graph := by
  unfold PlannerState.countRead countRead state
  dsimp only
  rw [map_update_name distinct present, List.modify_eq_set_getElem?]
  simp [present]

theorem releaseUnread_state (ledger : Ledger) (step : Nat) :
    (ledger.state graph).releaseUnread graph step position tensor.name =
      (ledger.releaseUnread graph step tensor.name).state graph := by
  have counted : (ledger.state graph).remaining[position]? =
      some (ledger.remaining tensor.name) := by simp [state, present]
  unfold PlannerState.releaseUnread releaseUnread
  rw [counted, release_state distinct present]
  simp only [Option.some.injEq]
  split <;> rfl

end

/-- A move does the same to a ledger and to the notes by positions. -/
theorem move_state (distinct : (graph.tensors.map Tensor.name).Nodup) {move : Move}
    (own : move.Of graph) (ledger : Ledger) :
    (ledger.state graph).move graph lifetimes options move =
      (ledger.move graph lifetimes options move).map (state graph) := by
  cases move with
  | place position tensor => exact place_state distinct own ledger
  | read step position name =>
    obtain ⟨tensor, present, rfl⟩ := own
    dsimp only [PlannerState.move]
    rw [countRead_state distinct present, releaseUnread_state distinct present]
    rfl
  | drop step position name =>
    obtain ⟨tensor, present, rfl⟩ := own
    dsimp only [PlannerState.move]
    rw [releaseUnread_state distinct present]
    rfl

theorem run_state (distinct : (graph.tensors.map Tensor.name).Nodup) {moves : List Move}
    (own : ∀ move ∈ moves, move.Of graph) (ledger : Ledger) :
    moves.foldlM (PlannerState.move graph lifetimes options) (ledger.state graph) =
      (moves.foldlM (move graph lifetimes options) ledger).map (state graph) := by
  induction moves generalizing ledger with
  | nil => rfl
  | cons first rest ih =>
    obtain ⟨isFirst, others⟩ := List.forall_mem_cons.mp own
    rw [List.foldlM_cons, List.foldlM_cons, move_state distinct isFirst]
    cases ledger.move graph lifetimes options first with
    | error error => rfl
    | ok next => exact ih others next

theorem note_note {first second : Tensor} (unlike : first.name ≠ second.name)
    {firstLifetime secondLifetime : Lifetime} {firstStorage secondStorage : Storage}
    {firstAvailable secondAvailable : Option Nat} (ledger : Ledger) :
    (ledger.note first firstLifetime firstStorage firstAvailable).note second secondLifetime
        secondStorage secondAvailable =
      (ledger.note second secondLifetime secondStorage secondAvailable).note first firstLifetime
        firstStorage firstAvailable := by
  unfold note
  rw [Function.update_comm unlike.symm]

/-- A note under another name does not matter to a tensor that is placed. -/
theorem place_note {first second : Tensor} (unlike : first.name ≠ second.name)
    {lifetime : Lifetime} {storage : Storage} {available : Option Nat} (ledger : Ledger) :
    (ledger.note first lifetime storage available).place lifetimes options second =
      (ledger.place lifetimes options second).map (note first lifetime storage available) := by
  unfold place
  cases lifetimes.get? second.name with
  | none => rfl
  | some own =>
    dsimp only
    split
    · exact congrArg Except.ok (note_note unlike ledger)
    · cases second.byteLength?.bind options.alignUp? with
      | none => rfl
      | some size =>
        dsimp only [note]
        cases ledger.arena.allocate options second.name size with
        | error error => rfl
        | ok taken => exact congrArg Except.ok (note_note unlike { ledger with arena := taken.2 })

/-- A constant takes no slot, so it may be placed before or after any other tensor. -/
theorem place_commutes {first second : Tensor} {lifetime : Lifetime}
    (found : lifetimes.get? first.name = some lifetime) (constant : lifetime.role = .constant)
    (unlike : first.name ≠ second.name) :
    Commutes (fun ledger tensor => Ledger.place lifetimes options tensor ledger) first second := by
  have noted : ∀ ledger : Ledger, ledger.place lifetimes options first =
      .ok (ledger.note first lifetime .rom none) := by
    intro ledger
    unfold place
    rw [found]
    exact if_pos constant
  intro ledger
  simp only [noted, ok_bind, place_note unlike]
  cases ledger.place lifetimes options second <;> rfl

end Ledger

/-! ### The moves of a graph -/

namespace Graph

theorem entryMoves_own {move : Move} (made : move ∈ graph.entryMoves 0 graph.tensors) :
    move.Of graph := by
  obtain ⟨⟨tensor, position⟩, chosen, rfl⟩ := List.mem_map.mp made
  exact List.mem_zipIdx_iff_getElem?.mp (List.mem_filter.mp chosen).1

theorem placeMoves_own {names : List String} {move : Move} (made : move ∈ graph.placeMoves names) :
    move.Of graph := by
  obtain ⟨name, _, found⟩ := List.mem_filterMap.mp made
  obtain ⟨position, _, found⟩ := Option.bind_eq_some_iff.mp found
  obtain ⟨tensor, present, rfl⟩ := Option.map_eq_some_iff.mp found
  exact present

theorem dropMoves_own {step : Nat} {names : List String} {move : Move}
    (made : move ∈ graph.dropMoves step names) : move.Of graph := by
  obtain ⟨name, _, found⟩ := List.mem_filterMap.mp made
  obtain ⟨position, isPosition, rfl⟩ := Option.map_eq_some_iff.mp found
  exact exists_tensor_of_position? isPosition

theorem readMoves_own {step : Nat} {seen : List Nat} {names : List String} {move : Move}
    (made : move ∈ graph.readMoves step seen names) : move.Of graph := by
  induction names generalizing seen with
  | nil => cases made
  | cons name rest ih =>
    unfold readMoves at made
    split at made
    · exact ih made
    · rename_i position found
      split at made
      · exact ih made
      · rcases List.mem_cons.mp made with rfl | later
        · exact exists_tensor_of_position? found
        · exact ih later

theorem movesFrom_own {step : Nat} {operators : List Operator} {move : Move}
    (made : move ∈ graph.movesFrom step operators) : move.Of graph := by
  induction operators generalizing step with
  | nil => cases made
  | cons operator rest ih =>
    simp only [movesFrom, stepMoves, List.mem_append] at made
    rcases made with (placed | read | dropped) | later
    · exact placeMoves_own placed
    · exact readMoves_own read
    · exact dropMoves_own dropped
    · exact ih later

theorem moves_own {move : Move} (made : move ∈ graph.moves) : move.Of graph := by
  rcases List.mem_append.mp made with entered | later
  · exact entryMoves_own entered
  · exact movesFrom_own later

/-! ### Plans by names -/

theorem initialState_eq (exact : lifetimes.Exact graph) :
    graph.initialState lifetimes = .ok ((Ledger.initial lifetimes).state graph) := by
  unfold initialState
  rw [mapM_eq_ok_map (g := fun tensor => (Ledger.initial lifetimes).remaining tensor.name)]
  · rfl
  · intro tensor member
    obtain ⟨position, present⟩ := List.mem_iff_getElem?.mp member
    obtain ⟨lifetime, declares⟩ := exact.declares_of_tensor present
    simp only [Ledger.initial, declares.get? exact, Option.map_some, Option.getD_some]

/-- The ledger after all moves of the planner. -/
def ledger (graph : Graph) (lifetimes : Lifetimes) (options : ArenaOptions) :
    Except PlanError Ledger :=
  graph.moves.foldlM (Ledger.move graph lifetimes options) (.initial lifetimes)

theorem collectEntries_map_eq_ok_iff {notes : String → Option PlanEntry} {tensors : List Tensor}
    {entries : List PlanEntry} :
    collectEntries tensors (tensors.map fun tensor => notes tensor.name) = .ok entries ↔
      List.Forall₂ (fun tensor entry => notes tensor.name = some entry) tensors entries := by
  induction tensors generalizing entries with
  | nil =>
    rw [List.forall₂_nil_left_iff]
    exact ⟨fun success => (Except.ok.inj success).symm, fun none => none ▸ rfl⟩
  | cons tensor rest ih =>
    rw [List.map_cons, List.forall₂_cons_left_iff]
    cases noted : notes tensor.name with
    | none => simp [collectEntries]
    | some entry =>
      simp only [collectEntries, bind_eq_ok, pure_eq_ok, ih, Option.some.injEq]
      constructor
      · rintro ⟨others, collected, rfl⟩
        exact ⟨entry, others, rfl, collected, rfl⟩
      · rintro ⟨_, others, rfl, collected, rfl⟩
        exact ⟨others, collected, rfl⟩

/-- A plan is read off the ledger after all moves. -/
theorem plan_eq_ok_iff_ledger (exact : lifetimes.Exact graph) {plan : Plan} :
    graph.plan lifetimes options = .ok plan ↔
      ∃ ledger, graph.ledger lifetimes options = .ok ledger ∧
        List.Forall₂ (fun tensor entry => ledger.entry tensor.name = some entry)
          graph.tensors plan.entries ∧
        plan.arenaSize = ledger.arena.arenaEnd ∧ plan.alignment = options.grain := by
  rw [plan_eq_planByMoves exact, planByMoves, initialState_eq exact, ok_bind,
    Ledger.run_state exact.distinct (fun _ => moves_own)]
  unfold ledger
  cases graph.moves.foldlM (Ledger.move graph lifetimes options) (.initial lifetimes) with
  | error error => simp [Except.map, bind, Except.bind]
  | ok ledger =>
    simp only [Except.map, ok_bind, conclude, Ledger.state, bind_eq_ok, pure_eq_ok,
      collectEntries_map_eq_ok_iff, Except.ok.injEq, exists_eq_left']
    constructor
    · rintro ⟨entries, collected, rfl⟩
      exact ⟨collected, rfl, rfl⟩
    · rintro ⟨collected, isSize, isAlignment⟩
      refine ⟨plan.entries, collected, ?_⟩
      rw [← isSize, ← isAlignment]

end Graph

end TensorArena
