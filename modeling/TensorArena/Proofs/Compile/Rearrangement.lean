import Mathlib.Data.List.Perm.Basic
import TensorArena.Proofs.Arena.Ledger
import TensorArena.Proofs.Lifetime.Acceptance
import TensorArena.Proofs.Lifetime.Truncation
import TensorArena.Proofs.Program.Fewest

/-!
# The order of declarations

The order in which a graph declares its tensors matters to the plan only as far as its inputs are
concerned: these get their slots in that order. Results are placed in the order of the operators,
and constants take no slots.
-/

set_option autoImplicit false

namespace TensorArena

/-- The graphs have the same operators and declare the same tensors, the inputs in the same order
and the others in any. -/
structure Graph.Rearranges (left right : Graph) : Prop where
  operators : left.operators = right.operators
  inputs : left.inputs = right.inputs
  outputs : left.outputs = right.outputs
  tensors : left.tensors.Perm right.tensors
  order : (left.tensors.filter fun tensor => left.role? tensor.name = some .input) =
    right.tensors.filter fun tensor => right.role? tensor.name = some .input

namespace Graph.Rearranges

variable {left right : Graph} (rearranges : left.Rearranges right)
  (distinct : (left.tensors.map Tensor.name).Nodup)

include rearranges

theorem symm : right.Rearranges left where
  operators := rearranges.operators.symm
  inputs := rearranges.inputs.symm
  outputs := rearranges.outputs.symm
  tensors := rearranges.tensors.symm
  order := rearranges.order.symm

theorem names_perm : (left.tensors.map Tensor.name).Perm (right.tensors.map Tensor.name) :=
  rearranges.tensors.map Tensor.name

theorem isOutput_eq : left.isOutput = right.isOutput := by
  funext name
  rw [isOutput, isOutput, rearranges.outputs]

theorem writes_iff {step : Nat} {name : String} :
    left.Writes step name ↔ right.Writes step name := by
  rw [Writes, Writes, rearranges.operators]

theorem reads_iff {step : Nat} {name : String} :
    left.Reads step name ↔ right.Reads step name := by
  rw [Reads, Reads, rearranges.operators]

include distinct

theorem distinct_right : (right.tensors.map Tensor.name).Nodup :=
  rearranges.names_perm.nodup_iff.mp distinct

/-- A name stands for the same tensor. -/
theorem tensor?_eq : left.tensor? = right.tensor? := by
  funext name
  apply Option.ext
  intro tensor
  unfold tensor?
  rw [find?_named_iff Tensor.name distinct,
    find?_named_iff Tensor.name (rearranges.distinct_right distinct), rearranges.tensors.mem_iff]

theorem role?_eq : left.role? = right.role? := by
  funext name
  rw [role?, role?, rearranges.tensor?_eq distinct, rearranges.inputs]

/-! ### Lifetimes -/

theorem wellOrdered (ordered : left.WellOrdered) : right.WellOrdered where
  distinct := rearranges.distinct_right distinct
  declared := by
    intro operator listed name occurs
    rw [← rearranges.operators] at listed
    exact rearranges.names_perm.subset (ordered.declared operator listed name occurs)
  unwritten := by
    rw [← rearranges.operators, ← rearranges.role?_eq distinct]
    exact ordered.unwritten
  writtenOnce := by
    rw [← rearranges.operators, ← rearranges.role?_eq distinct]
    intro tensor member
    exact ordered.writtenOnce tensor (rearranges.tensors.mem_iff.mpr member)
  readLater := by
    intro name writer reader role writes reads
    rw [← rearranges.role?_eq distinct] at role
    exact ordered.readLater name writer reader role (rearranges.writes_iff.mpr writes)
      (rearranges.reads_iff.mpr reads)
  used := by
    rw [← rearranges.operators, ← rearranges.role?_eq distinct, ← rearranges.outputs]
    intro tensor member
    exact ordered.used tensor (rearranges.tensors.mem_iff.mpr member)

theorem lifetime_exact {lifetime : Lifetime} (exact : lifetime.Exact left) :
    lifetime.Exact right where
  role := by
    rw [← rearranges.role?_eq distinct]
    exact exact.role
  producer step := (exact.producer step).trans rearranges.writes_iff
  intermediate := exact.intermediate
  consumers step := (exact.consumers step).trans rearranges.reads_iff
  ascending := exact.ascending
  before := exact.before
  isOutput := by
    rw [← rearranges.isOutput_eq]
    exact exact.isOutput
  used := exact.used
  start := exact.start
  stop := by
    rw [← rearranges.operators]
    exact exact.stop
  refcount := exact.refcount

omit distinct

variable {lifetimes others : Lifetimes} (exact : lifetimes.Exact left) (other : others.Exact right)

include exact other

theorem get?_of_get? {name : String} {lifetime : Lifetime}
    (found : lifetimes.get? name = some lifetime) : others.get? name = some lifetime := by
  obtain ⟨member, rfl⟩ := exact.get?_eq_some_iff.mp found
  have known := rearranges.lifetime_exact exact.distinct (exact.exact_of_mem member)
  obtain ⟨same, listed, named⟩ := other.exists_of_role known.role
  obtain rfl := (other.exact_of_mem listed).unique known named
  exact other.get?_eq_some_iff.mpr ⟨listed, rfl⟩

/-- A tensor has the same lifetime. -/
theorem get?_eq (name : String) : lifetimes.get? name = others.get? name := by
  apply Option.ext
  intro lifetime
  exact ⟨rearranges.get?_of_get? exact other, rearranges.symm.get?_of_get? other exact⟩

end Graph.Rearranges

/-! ### Moves without positions -/

/-- What a move does and to which tensor. -/
def Move.bare : Move → Move
  | .place _ tensor => .place 0 tensor
  | .read step _ name => .read step 0 name
  | .drop step _ name => .drop step 0 name

namespace Graph

variable {graph : Graph}

/-- The inputs and constants among the tensors. -/
def outside (graph : Graph) (tensors : List Tensor) : List Tensor :=
  tensors.filter fun tensor => graph.role? tensor.name ≠ some .intermediate

theorem entryMoves_bare (position : Nat) (tensors : List Tensor) :
    (graph.entryMoves position tensors).map Move.bare =
      (graph.outside tensors).map (.place 0) := by
  induction tensors generalizing position with
  | nil => rfl
  | cons tensor rest ih =>
    unfold entryMoves outside at ih ⊢
    rw [List.zipIdx_cons, List.filter_cons, List.filter_cons]
    dsimp only
    split
    · rw [List.map_cons, List.map_cons, List.map_cons, ih]
      rfl
    · exact ih (position + 1)

theorem position?_inj {first second : String} {position : Nat}
    (isFirst : graph.position? first = some position)
    (isSecond : graph.position? second = some position) : first = second := by
  obtain ⟨tensor, present, rfl⟩ := exists_tensor_of_position? isFirst
  obtain ⟨other, again, rfl⟩ := exists_tensor_of_position? isSecond
  rw [Option.some.inj (present.symm.trans again)]

section

variable (distinct : (graph.tensors.map Tensor.name).Nodup)

include distinct

theorem tensor?_of_position? {name : String} {position : Nat}
    (found : graph.position? name = some position) :
    graph.tensor? name = graph.tensors[position]? := by
  obtain ⟨tensor, present, rfl⟩ := exists_tensor_of_position? found
  rw [present, tensor?_name distinct (List.mem_of_getElem? present)]

theorem placeMoves_bare (names : List String) :
    (graph.placeMoves names).map Move.bare =
      names.filterMap fun name => (graph.tensor? name).map (.place 0) := by
  rw [placeMoves, List.map_filterMap]
  apply List.filterMap_congr
  intro name _
  cases found : graph.position? name with
  | none =>
    rw [position?_eq_none_iff.mp found]
    rfl
  | some position =>
    rw [tensor?_of_position? distinct found, Option.bind_some, Option.map_map]
    rfl

theorem dropMoves_bare (step : Nat) (names : List String) :
    (graph.dropMoves step names).map Move.bare =
      names.filterMap fun name => (graph.tensor? name).map fun _ => .drop step 0 name := by
  rw [dropMoves, List.map_filterMap]
  apply List.filterMap_congr
  intro name _
  cases found : graph.position? name with
  | none =>
    rw [position?_eq_none_iff.mp found]
    rfl
  | some position =>
    obtain ⟨tensor, present, _⟩ := exists_tensor_of_position? found
    rw [tensor?_of_position? distinct found, present]
    rfl

end

end Graph

namespace Graph.Rearranges

variable {left right : Graph} (rearranges : left.Rearranges right)
  (distinct : (left.tensors.map Tensor.name).Nodup)

include rearranges distinct

/-- Positions that have been seen are those of the same tensors. -/
theorem readMoves_bare_eq {step : Nat} {names : List String} :
    ∀ {seen others : List Nat},
      (∀ name i j, left.position? name = some i → right.position? name = some j →
        (i ∈ seen ↔ j ∈ others)) →
      (left.readMoves step seen names).map Move.bare =
        (right.readMoves step others names).map Move.bare := by
  induction names with
  | nil => exact fun _ => rfl
  | cons name rest ih =>
    intro seen others same
    unfold readMoves
    have declared : left.position? name = none ↔ right.position? name = none := by
      rw [position?_eq_none_iff, position?_eq_none_iff, rearranges.tensor?_eq distinct]
    cases isLeft : left.position? name with
    | none =>
      rw [declared.mp isLeft]
      exact ih same
    | some i =>
      cases isRight : right.position? name with
      | none => exact absurd (declared.mpr isRight) (by simp [isLeft])
      | some j =>
        dsimp only
        have both := same name i j isLeft isRight
        by_cases before : i ∈ seen
        · rw [if_pos (by simpa using before), if_pos (by simpa using both.mp before)]
          exact ih same
        · rw [if_neg (by simpa using before), if_neg (by simpa using mt both.mpr before),
            List.map_cons, List.map_cons]
          refine congrArg _ (ih ?_)
          intro other k l otherLeft otherRight
          have first : k = i ↔ other = name :=
            ⟨fun at_i => position?_inj (at_i ▸ otherLeft) isLeft, fun named =>
              Option.some.inj (otherLeft.symm.trans (named ▸ isLeft))⟩
          have second : l = j ↔ other = name :=
            ⟨fun at_j => position?_inj (at_j ▸ otherRight) isRight, fun named =>
              Option.some.inj (otherRight.symm.trans (named ▸ isRight))⟩
          rw [List.mem_cons, List.mem_cons, first, second, same other k l otherLeft otherRight]

theorem movesFrom_bare_eq (step : Nat) (operators : List Operator) :
    (left.movesFrom step operators).map Move.bare =
      (right.movesFrom step operators).map Move.bare := by
  induction operators generalizing step with
  | nil => rfl
  | cons operator rest ih =>
    have distinctRight := rearranges.distinct_right distinct
    have reads : (left.readMoves step [] operator.inputs).map Move.bare =
        (right.readMoves step [] operator.inputs).map Move.bare :=
      rearranges.readMoves_bare_eq distinct (by simp)
    simp only [movesFrom, stepMoves, List.map_append, ih, reads, placeMoves_bare distinct,
      placeMoves_bare distinctRight, dropMoves_bare distinct, dropMoves_bare distinctRight,
      rearranges.tensor?_eq distinct]

end Graph.Rearranges

/-! ### The two runs -/

namespace Ledger

variable {graph : Graph} {lifetimes : Lifetimes} {options : ArenaOptions}

theorem run_bare (moves : List Move) (ledger : Ledger) :
    (moves.map Move.bare).foldlM (move graph lifetimes options) ledger =
      moves.foldlM (move graph lifetimes options) ledger := by
  rw [List.foldlM_map]
  congr
  funext ledger move
  cases move <;> rfl

theorem run_entryMoves (tensors : List Tensor) (ledger : Ledger) :
    (graph.entryMoves 0 tensors).foldlM (move graph lifetimes options) ledger =
      (graph.outside tensors).foldlM (fun ledger tensor => Ledger.place lifetimes options tensor ledger) ledger := by
  rw [← run_bare, Graph.entryMoves_bare, List.foldlM_map]
  rfl

end Ledger

namespace Graph.Rearranges

variable {left right : Graph} (rearranges : left.Rearranges right)
  (distinct : (left.tensors.map Tensor.name).Nodup)

include rearranges distinct

theorem outside_perm : (left.outside left.tensors).Perm (right.outside right.tensors) := by
  unfold outside
  rw [rearranges.role?_eq distinct]
  exact rearranges.tensors.filter _

theorem inputs_outside_eq :
    (left.outside left.tensors).filter (fun tensor => left.role? tensor.name = some .input) =
      (right.outside right.tensors).filter fun tensor => left.role? tensor.name = some .input := by
  have inputs : ∀ tensors : List Tensor, (left.outside tensors).filter
      (fun tensor => left.role? tensor.name = some .input) =
        tensors.filter fun tensor => left.role? tensor.name = some .input := by
    intro tensors
    rw [outside, List.filter_filter]
    apply List.filter_congr
    intro tensor _
    by_cases input : left.role? tensor.name = some .input <;> simp [input]
  have same : right.outside right.tensors = left.outside right.tensors := by
    unfold outside
    rw [rearranges.role?_eq distinct]
  rw [same, inputs, inputs, rearranges.order, rearranges.role?_eq distinct]

omit distinct

variable {lifetimes others : Lifetimes} (exact : lifetimes.Exact left) (other : others.Exact right)

include exact

/-- Only the order of the inputs matters to the placing before the first step. -/
theorem placeAll_eq (options : ArenaOptions) (ledger : Ledger) :
    (left.outside left.tensors).foldlM
        (fun ledger tensor => Ledger.place lifetimes options tensor ledger) ledger =
      (right.outside right.tensors).foldlM
        (fun ledger tensor => Ledger.place lifetimes options tensor ledger) ledger := by
  have distinct := exact.distinct
  refine foldlM_eq_of_perm (rearranges.outside_perm distinct) (distinct.of_map.filter _)
    (rearranges.inputs_outside_eq distinct) ?_ ledger
  intro first isFirst second isSecond unlike free
  obtain ⟨declared, boundary⟩ := List.mem_filter.mp isFirst
  have named : first.name ≠ second.name := fun same =>
    unlike (eq_of_name_eq Tensor.name distinct declared (List.mem_filter.mp isSecond).1 same)
  obtain ⟨position, present⟩ := List.mem_iff_getElem?.mp declared
  obtain ⟨lifetime, declares⟩ := exact.declares_of_tensor present
  have known : left.role? first.name = some lifetime.role :=
    (declares.pair exact).1 ▸ (declares.pair exact).2.role
  have constant : lifetime.role = .constant := by
    rw [known] at boundary free
    cases role : lifetime.role with
    | constant => rfl
    | input => simp [role] at free
    | intermediate => simp [role] at boundary
  exact Ledger.place_commutes (declares.get? exact) constant named

include other

theorem place_eq (options : ArenaOptions) :
    Ledger.place lifetimes options = Ledger.place others options := by
  funext tensor ledger
  unfold Ledger.place
  rw [rearranges.get?_eq exact other]

theorem move_eq (options : ArenaOptions) :
    Ledger.move left lifetimes options = Ledger.move right others options := by
  funext ledger move
  cases move with
  | place _ tensor =>
    unfold Ledger.move
    rw [rearranges.place_eq exact other]
  | read step _ name =>
    unfold Ledger.move Ledger.releaseUnread
    rw [rearranges.isOutput_eq]
  | drop step _ name =>
    unfold Ledger.move Ledger.releaseUnread
    rw [rearranges.isOutput_eq]

/-- Both walks end with the same notes. -/
theorem ledger_eq (options : ArenaOptions) :
    left.ledger lifetimes options = right.ledger others options := by
  have starting : Ledger.initial lifetimes = Ledger.initial others := by
    unfold Ledger.initial
    rw [show lifetimes.get? = others.get? from funext (rearranges.get?_eq exact other)]
  have entering (ledger : Ledger) :
      (left.entryMoves 0 left.tensors).foldlM (Ledger.move left lifetimes options) ledger =
        (right.entryMoves 0 right.tensors).foldlM (Ledger.move left lifetimes options) ledger := by
    rw [Ledger.run_entryMoves, rearranges.placeAll_eq exact, rearranges.move_eq exact other,
      Ledger.run_entryMoves, rearranges.place_eq exact other]
  have walking (ledger : Ledger) :
      (left.movesFrom 0 left.operators).foldlM (Ledger.move left lifetimes options) ledger =
        (right.movesFrom 0 right.operators).foldlM (Ledger.move left lifetimes options)
          ledger := by
    rw [← Ledger.run_bare, rearranges.movesFrom_bare_eq exact.distinct, rearranges.operators,
      Ledger.run_bare]
  unfold ledger moves
  rw [List.foldlM_append, List.foldlM_append, ← rearranges.move_eq exact other, ← starting,
    entering]
  exact congrArg _ (funext walking)

/-- The plans have the same entries, in the order of the declarations. -/
theorem exists_plan {options : ArenaOptions} {plan : Plan}
    (planned : left.plan lifetimes options = .ok plan) :
    ∃ twin, right.plan others options = .ok twin ∧ twin.entries.Perm plan.entries ∧
      twin.arenaSize = plan.arenaSize ∧ twin.alignment = plan.alignment := by
  obtain ⟨ledger, walked, noted, isSize, isAlignment⟩ := (plan_eq_ok_iff_ledger exact).mp planned
  obtain ⟨entries, others, perm⟩ := List.perm_comp_forall₂ rearranges.tensors.symm noted
  refine ⟨⟨entries, plan.arenaSize, plan.alignment⟩, ?_, perm, rfl, rfl⟩
  rw [rearranges.ledger_eq exact other] at walked
  exact (plan_eq_ok_iff_ledger other).mpr ⟨ledger, walked, others, isSize, isAlignment⟩

end Graph.Rearranges

/-! ### Sharing and assembling -/

namespace Graph

theorem shareFrom_congr {left right : Graph} (same : left.signature? = right.signature?)
    {catalog : Catalog} {operators : List Operator} :
    ∀ {step : Nat} {table : InstanceTable}, left.shareFrom catalog step operators table =
      right.shareFrom catalog step operators table := by
  have keys : ∀ step operator, left.instanceKey catalog step operator =
      right.instanceKey catalog step operator := by
    intro step operator
    unfold instanceKey
    rw [same]
  induction operators with
  | nil => exact rfl
  | cons operator rest ih =>
    intro step table
    rw [shareFrom_cons, shareFrom_cons, keys]
    exact congrArg _ (funext fun key => ih)

theorem Rearranges.shareInstances_eq {left right : Graph} (rearranges : left.Rearranges right)
    (distinct : (left.tensors.map Tensor.name).Nodup) (catalog : Catalog) :
    right.shareInstances catalog = left.shareInstances catalog := by
  have same : left.signature? = right.signature? := by
    funext operator
    have kinds : left.kindOf? = right.kindOf? := by
      funext name
      rw [kindOf?, kindOf?, rearranges.tensor?_eq distinct]
    rw [signature?, signature?, kinds]
  rw [shareInstances, shareInstances, ← rearranges.operators, shareFrom_congr same]

end Graph

section

variable {left right : Plan} (same : ∀ name, left.entry? name = right.entry? name)

include same

theorem Plan.reusesSince_congr (first : Nat) (names : List String) :
    left.reusesSince first names = right.reusesSince first names := by
  induction names with
  | nil => rfl
  | cons name rest ih => rw [reusesSince, reusesSince, same, ih]

/-- A program looks at the entries of a plan by name only. -/
theorem assembleFrom_congr {table : InstanceTable} {batching : Batching}
    {operators : List Operator} :
    ∀ {step : Nat} {batch : Batch}, assembleFrom left table batching step operators batch =
      assembleFrom right table batching step operators batch := by
  have flushes : ∀ batch names, left.mustFlush batch names = right.mustFlush batch names := by
    intro batch names
    unfold Plan.mustFlush
    cases batch.first with
    | none => rfl
    | some first => exact Plan.reusesSince_congr same first names
  induction operators with
  | nil => exact rfl
  | cons operator rest ih =>
    intro step batch
    unfold assembleFrom assembleOperator
    simp only [flushes, ih]

end

/-- Plans with the same entries in another order find the same entries by name. -/
theorem Graph.Planned.entry?_eq_of_perm {left right : Graph} {lifetimes others : Lifetimes}
    {options : ArenaOptions} {plan twin : Plan} (planned : left.Planned lifetimes options plan)
    (replanned : right.Planned others options twin) (perm : twin.entries.Perm plan.entries)
    (name : String) : twin.entry? name = plan.entry? name := by
  apply Option.ext
  intro entry
  rw [replanned.fits.entry?_eq_some_iff replanned.exact,
    planned.fits.entry?_eq_some_iff planned.exact, perm.mem_iff]

/-- The order in which results and constants are declared does not matter to the plan. If one of
two graphs that differ only in it is analysed and planned, the other one is too, with an arena of
the same size and the same entry for every name. They share the same instances, and their programs
do the same after they have registered the inputs and constants. -/
theorem Graph.rearranged_plans_agree (left right : Graph) (options : ArenaOptions)
    (lifetimes : Lifetimes) (plan : Plan) (rearranges : left.Rearranges right)
    (analysed : left.lifetimes = .ok lifetimes)
    (planned : left.plan lifetimes options = .ok plan) :
    ∃ others twin, right.lifetimes = .ok others ∧ right.plan others options = .ok twin ∧
      twin.arenaSize = plan.arenaSize ∧ (∀ name, twin.entry? name = plan.entry? name) ∧
      ∀ catalog, right.shareInstances catalog = left.shareInstances catalog ∧
        ∀ table batching, left.shareInstances catalog = .ok table →
          ∃ rest, left.assemble plan table batching =
              .ok (left.entryNames.map Step.register ++ rest) ∧
            right.assemble twin table batching =
              .ok (right.entryNames.map Step.register ++ rest) := by
  have exact := Graph.lifetimes_eq_ok analysed
  obtain ⟨others, reanalysed⟩ :=
    (rearranges.wellOrdered exact.distinct exact.wellOrdered).exists_lifetimes
  have other := Graph.lifetimes_eq_ok reanalysed
  obtain ⟨twin, replanned, perm, sameSize, _⟩ := rearranges.exists_plan exact other planned
  have first := Planned.of_eq_ok analysed planned
  have second := Planned.of_eq_ok reanalysed replanned
  have same := first.entry?_eq_of_perm second perm
  refine ⟨others, twin, reanalysed, replanned, sameSize, same, ?_⟩
  intro catalog
  refine ⟨rearranges.shareInstances_eq exact.distinct catalog, ?_⟩
  intro table batching shared
  obtain ⟨steps, assembled⟩ := first.exists_assemble shared batching
  obtain ⟨rest, walked, rfl⟩ := Graph.assemble_eq_ok first assembled
  refine ⟨rest, assembled, ?_⟩
  rw [← assembleFrom_congr same, rearranges.operators] at walked
  rw [assemble, walked, second.entrySteps_eq]
  rfl

/-- The relay with its tensors declared backwards. -/
def Graph.backwardRelay : Graph := { relay with tensors := relay.tensors.reverse }

theorem Graph.relay_rearranges : relay.Rearranges backwardRelay where
  operators := rfl
  inputs := rfl
  outputs := rfl
  tensors := (List.reverse_perm _).symm
  order := rfl

theorem Graph.backwardRelay_agrees :
    ∃ lifetimes plan others twin table rest, relay.lifetimes = .ok lifetimes ∧
      relay.plan lifetimes {} = .ok plan ∧ backwardRelay.lifetimes = .ok others ∧
      backwardRelay.plan others {} = .ok twin ∧ twin.arenaSize = plan.arenaSize ∧
      relay.assemble plan table {} = .ok (.register "x" :: .register "w" :: rest) ∧
      backwardRelay.assemble twin table {} = .ok (.register "w" :: .register "x" :: rest) := by
  obtain ⟨others, twin, reanalysed, replanned, size, _, sharing⟩ :=
    rearranged_plans_agree relay backwardRelay {} _ _ relay_rearranges rfl rfl
  obtain ⟨rest, assembled, reassembled⟩ := (sharing .standard).2 _ {} rfl
  exact ⟨_, _, others, twin, _, rest, rfl, rfl, reanalysed, replanned, size, assembled,
    reassembled⟩

end TensorArena
