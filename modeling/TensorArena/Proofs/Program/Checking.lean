import Mathlib.Data.List.Pairwise
import TensorArena.Catalog.Standard
import TensorArena.Proofs.Arena.Conflict
import TensorArena.Proofs.Graph.Boundary
import TensorArena.Proofs.Program.Completion

/-!
# Two checks of a plan

A plan can be checked by comparing all pairs of its entries, and by replaying its eager program.
The two checks agree, wherever the plan puts the tensors: an eager program registers a tensor
exactly when its live interval begins and releases it exactly when the interval is over.
-/

set_option autoImplicit false

namespace TensorArena

/-- A plan passes its check when no two entries of different names are in conflict. -/
theorem Graph.Recorded.verify_eq_ok_iff {graph : Graph} {lifetimes : Lifetimes} {plan : Plan}
    (recorded : graph.Recorded lifetimes plan) :
    plan.verify = .ok () ↔ ∀ left ∈ plan.entries, ∀ right ∈ plan.entries,
      left.name ≠ right.name → left.conflicts right = false := by
  have distinct := List.pairwise_map.mp recorded.names
  rw [Plan.verify_eq_ok_iff]
  constructor
  · intro pairwise left isLeft right isRight unlike
    have symmetric : Std.Symm fun left right : PlanEntry => left.conflicts right = false :=
      ⟨fun left right free => right.conflicts_comm left ▸ free⟩
    exact pairwise.forall isLeft isRight fun same => unlike (congrArg PlanEntry.name same)
  · intro free
    exact distinct.imp_of_mem fun isLeft isRight unlike => free _ isLeft _ isRight unlike

namespace Launch

variable {World : Type} {catalog : Catalog} {launch : Launch World}

/-- Tensors that clash before the next step has run are in conflict. -/
theorem Clash.conflict (ready : launch.Ready catalog) {done next : Nat} (near : next ≤ done + 1)
    {left right : Lifetime}
    (clash : launch.Clash (Context.Tracks.settled done next []) left right) :
    ∃ leftEntry ∈ launch.plan.entries, ∃ rightEntry ∈ launch.plan.entries,
      leftEntry.name = left.name ∧ rightEntry.name = right.name ∧
        leftEntry.conflicts rightEntry = true := by
  have live : ∀ lifetime : Lifetime, lifetime.Present (Context.Tracks.settled done next []) →
      lifetime.interval.start ≤ next ∧ done < lifetime.interval.stop := by
    rintro lifetime ⟨clock, current, live⟩
    by_cases started : lifetime.interval.start ≤ next
    · rw [Context.Tracks.settled, if_neg List.not_mem_nil, if_pos started] at current
      obtain rfl := Option.some.inj current
      exact ⟨started, live⟩
    · simp [Context.Tracks.settled, started] at current
  obtain ⟨leftEntry, rightEntry, foundLeft, foundRight, overlap⟩ := clash.overlap
  obtain ⟨other, isLeft, sameLeft, namedLeft, _, _, leftInterval⟩ :=
    ready.recorded.entry clash.left_mem
  obtain rfl := Option.some.inj (foundLeft.symm.trans sameLeft)
  obtain ⟨other, isRight, sameRight, namedRight, _, _, rightInterval⟩ :=
    ready.recorded.entry clash.right_mem
  obtain rfl := Option.some.inj (foundRight.symm.trans sameRight)
  refine ⟨leftEntry, isLeft, rightEntry, isRight, namedLeft, namedRight,
    PlanEntry.conflicts_iff.mpr ⟨?_, (Storage.overlaps_iff _ _).mp overlap⟩⟩
  have := live left clash.left_present
  have := live right clash.right_present
  rw [leftInterval, rightInterval]
  omega

/-- Entries in conflict clash when the later one of them is registered by an eager program. -/
theorem clash_of_conflict (ready : launch.Ready catalog) {leftEntry rightEntry : PlanEntry}
    (isLeft : leftEntry ∈ launch.plan.entries) (isRight : rightEntry ∈ launch.plan.entries)
    (unlike : leftEntry.name ≠ rightEntry.name)
    (conflict : leftEntry.conflicts rightEntry = true)
    (order : rightEntry.interval.start ≤ leftEntry.interval.start) :
    ∃ left right, launch.Clash (Context.Tracks.settled 0 0 []) left right ∨
      launch.Clashes id 0 left right := by
  have recorded := ready.recorded
  obtain ⟨left, inLeft, foundLeft, namedLeft, _, leftInterval⟩ := recorded.lifetime isLeft
  obtain ⟨right, inRight, foundRight, namedRight, _, rightInterval⟩ := recorded.lifetime isRight
  obtain ⟨⟨_, together⟩, shared⟩ := PlanEntry.conflicts_iff.mp conflict
  rw [leftInterval, rightInterval] at order
  rw [PlanEntry.conflicts_iff, leftInterval, rightInterval] at conflict
  have clash : ∀ done next, left.interval.start ≤ next → done < left.interval.stop →
      done < right.interval.stop →
      launch.Clash (Context.Tracks.settled done next []) left right := by
    intro done next started leftLive rightLive
    have earlier : right.interval.start ≤ next := Nat.le_trans order started
    exact ⟨inLeft, inRight, namedLeft ▸ namedRight ▸ unlike,
      ⟨done, by simp [Context.Tracks.settled, started], leftLive⟩,
      ⟨done, by simp [Context.Tracks.settled, earlier], rightLive⟩,
      leftEntry, rightEntry, foundLeft, foundRight, (Storage.overlaps_iff _ _).mpr shared⟩
  refine ⟨left, right, ?_⟩
  have ended := (recorded.known inLeft).start_le_stop
  cases start : left.interval.start with
  | zero =>
    exact .inl (clash 0 0 (Nat.le_of_eq start) (recorded.known inLeft).stop_pos
      (recorded.known inRight).stop_pos)
  | succ step =>
    obtain ⟨operator, present, listed⟩ := (recorded.known inLeft).writes_of_start start
    exact .inr ⟨step, operator, Nat.zero_le _, present, listed,
      clash step (step + 1) (Nat.le_of_eq start) (by omega) (by omega)⟩

/-- The steps of an eager program run if the plan passes its check. Otherwise a registration is
refused because of two tensors that are in conflict. -/
theorem eager_runs (ready : launch.Ready catalog) (maxPending : Option Nat) :
    ∃ steps, launch.graph.assemble launch.plan launch.table { emission := .eager, maxPending } =
        .ok steps ∧
      ((∃ execution, launch.runs { context := { world := launch.world } } steps = .ok execution ∧
          launch.Complete execution ∧ launch.plan.verify = .ok ()) ∨
        ∃ left ∈ launch.plan.entries, ∃ right ∈ launch.plan.entries, left.name ≠ right.name ∧
          left.conflicts right = true ∧
          launch.runs { context := { world := launch.world } } steps =
            .error (.context (.addressConflict left.name right.name))) := by
  obtain ⟨steps, since, prompt, assembled, _, registers⟩ :=
    assemble_runs ready { emission := .eager, maxPending }
  have current : ∀ step operator, launch.graph.operators[step]? = some operator →
      since step = step := by
    intro step operator present
    rcases prompt step operator (Nat.zero_le _) present with same | ⟨lazy, _⟩
    · exact same
    · exact absurd rfl lazy
  refine ⟨steps, assembled, ?_⟩
  rcases registers with ⟨execution, ran, complete, clear⟩ | ⟨left, right, clash, refused⟩
  · refine .inl ⟨execution, ran, complete, ready.recorded.verify_eq_ok_iff.mpr ?_⟩
    have free : ∀ left right, ¬ (launch.Clash (Context.Tracks.settled 0 0 []) left right ∨
        launch.Clashes id 0 left right) := by
      rintro left right (clash | ⟨step, operator, late, present, listed, clash⟩)
      · exact clear left right (.inl clash)
      · refine clear left right (.inr ⟨step, operator, late, present, listed, ?_⟩)
        rwa [current step operator present]
    intro left isLeft right isRight unlike
    by_contra conflict
    rw [Bool.not_eq_false] at conflict
    rcases Nat.le_total right.interval.start left.interval.start with order | order
    · obtain ⟨_, _, clash⟩ := clash_of_conflict ready isLeft isRight unlike conflict order
      exact free _ _ clash
    · rw [PlanEntry.conflicts_comm] at conflict
      obtain ⟨_, _, clash⟩ := clash_of_conflict ready isRight isLeft unlike.symm conflict order
      exact free _ _ clash
  · have conflict : left.name ≠ right.name ∧ ∃ leftEntry ∈ launch.plan.entries,
        ∃ rightEntry ∈ launch.plan.entries, leftEntry.name = left.name ∧
          rightEntry.name = right.name ∧ leftEntry.conflicts rightEntry = true := by
      rcases clash with clash | ⟨step, operator, _, present, _, clash⟩
      · exact ⟨clash.unlike, clash.conflict ready (Nat.zero_le _)⟩
      · rw [current step operator present] at clash
        exact ⟨clash.unlike, clash.conflict ready (Nat.le_refl _)⟩
    obtain ⟨unlike, leftEntry, isLeft, rightEntry, isRight, namedLeft, namedRight, conflicts⟩ :=
      conflict
    rw [← namedLeft, ← namedRight] at unlike refused
    exact .inr ⟨leftEntry, isLeft, rightEntry, isRight, unlike, conflicts, refused⟩

end Launch

/-- The check of a plan and the replay of its eager program agree. The plan records the lifetimes
of a valid graph but may put its tensors anywhere. The eager program replays if and only if the
plan passes its check, and when the check finds an overlap, the replay stops with an address
conflict between two tensors that are live together in overlapping slots. -/
theorem Graph.verify_iff_replays (graph : Graph) (catalog : Catalog) (lifetimes : Lifetimes)
    (plan : Plan) (table : InstanceTable) (valid : graph.validate = .ok ())
    (analysed : graph.lifetimes = .ok lifetimes)
    (shared : graph.shareInstances catalog = .ok table) (records : plan.Records lifetimes)
    (maxPending : Option Nat) :
    ∃ steps, graph.assemble plan table { emission := .eager, maxPending } = .ok steps ∧
      ((∃ context, graph.replay plan table steps = .ok context) ↔ plan.verify = .ok ()) ∧
      ∀ first second, plan.verify = .error (.overlap first second) →
        ∃ left ∈ plan.entries, ∃ right ∈ plan.entries, left.name ≠ right.name ∧
          left.conflicts right = true ∧
          graph.replay plan table steps =
            .error (.context (.addressConflict left.name right.name)) := by
  obtain ⟨distinct, declared⟩ := validate_eq_ok valid
  have recorded := records.recorded (Graph.lifetimes_eq_ok analysed)
  have ready : Launch.Ready catalog
      ⟨graph, lifetimes, plan, table, fun _ symbol => .idle Unit symbol, ()⟩ :=
    ⟨recorded, shareInstances_eq_ok shared, fun _ _ _ _ _ => rfl⟩
  obtain ⟨steps, assembled, outcome⟩ := Launch.eager_runs ready maxPending
  refine ⟨steps, assembled, ?_⟩
  rcases outcome with
    ⟨execution, ran, complete, verified⟩ |
      ⟨left, isLeft, right, isRight, unlike, conflict, refused⟩
  · obtain ⟨context, replayed, _⟩ := complete.finish ready distinct declared ran
    refine ⟨⟨fun _ => verified, fun _ => ⟨context, replayed⟩⟩, ?_⟩
    intro first second overlap
    cases verified.symm.trans overlap
  · have replayed : graph.replay plan table steps =
        .error (.context (.addressConflict left.name right.name)) := by
      unfold replay execute
      unfold Launch.runs at refused
      rw [refused]
      rfl
    refine ⟨⟨?_, ?_⟩, fun _ _ _ => ⟨left, isLeft, right, isRight, unlike, conflict, replayed⟩⟩
    · rintro ⟨context, success⟩
      cases replayed.symm.trans success
    · intro verified
      have free := recorded.verify_eq_ok_iff.mp verified left isLeft right isRight unlike
      cases free.symm.trans conflict

/-- The plan with all tensors in one slot. -/
def Plan.crowd (plan : Plan) (storage : Storage) : Plan :=
  { plan with entries := plan.entries.map fun entry => { entry with storage } }

theorem Plan.Records.crowd {plan : Plan} {lifetimes : Lifetimes} (records : plan.Records lifetimes)
    (storage : Storage) : (plan.crowd storage).Records lifetimes := by
  unfold Plan.Records Plan.crowd
  rw [List.map_map]
  exact records

theorem Graph.relay_verify_iff_replays :
    ∃ lifetimes plan table, relay.validate = .ok () ∧ relay.lifetimes = .ok lifetimes ∧
      relay.shareInstances .standard = .ok table ∧ plan.Records lifetimes ∧
      plan.verify = .ok () ∧ (plan.crowd (.arena 0 4)).verify = .error (.overlap "x" "w") ∧
      (∃ steps, relay.assemble plan table { emission := .eager } = .ok steps ∧
        ∃ context, relay.replay plan table steps = .ok context) ∧
      ∃ steps, relay.assemble (plan.crowd (.arena 0 4)) table { emission := .eager } = .ok steps ∧
        ∃ left right : PlanEntry, left.conflicts right = true ∧
          relay.replay (plan.crowd (.arena 0 4)) table steps =
            .error (.context (.addressConflict left.name right.name)) := by
  obtain ⟨lifetimes, analysed⟩ : ∃ lifetimes, relay.lifetimes = .ok lifetimes := ⟨_, rfl⟩
  obtain ⟨plan, planned⟩ : ∃ plan, relay.plan lifetimes {} = .ok plan := by
    cases analysed
    exact ⟨_, rfl⟩
  obtain ⟨table, shared⟩ : ∃ table, relay.shareInstances .standard = .ok table := ⟨_, rfl⟩
  have records : plan.Records lifetimes := by
    cases analysed
    cases planned
    exact List.Perm.refl _
  have verified : plan.verify = .ok () := by
    cases analysed
    cases planned
    rfl
  have overlap : (plan.crowd (.arena 0 4)).verify = .error (.overlap "x" "w") := by
    cases analysed
    cases planned
    rfl
  obtain ⟨steps, assembled, agrees, _⟩ :=
    verify_iff_replays relay .standard lifetimes plan table rfl analysed shared records none
  obtain ⟨others, crowded, _, refuses⟩ :=
    verify_iff_replays relay .standard lifetimes (plan.crowd (.arena 0 4)) table rfl analysed shared
      (records.crowd _) none
  obtain ⟨left, _, right, _, _, conflict, refused⟩ := refuses _ _ overlap
  exact ⟨lifetimes, plan, table, rfl, analysed, shared, records, verified, overlap,
    ⟨steps, assembled, agrees.mpr verified⟩, others, crowded, left, right, conflict, refused⟩

end TensorArena
