import TensorArena.Proofs.Arena.Ownership

/-!
# The check of a plan

A plan is checked by comparing the live intervals and the slots of all pairs of entries. The check
passes exactly if no address has two owners at one position, wherever the slots come from, and
otherwise it names the first pair of owners.
-/

set_option autoImplicit false

namespace TensorArena

namespace PlanEntry

theorem conflicts_iff {left right : PlanEntry} :
    left.conflicts right = true ↔
      (left.interval.start ≤ right.interval.stop ∧ right.interval.start ≤ left.interval.stop) ∧
        ∃ address, left.storage.Covers address ∧ right.storage.Covers address := by
  rw [conflicts, Bool.and_eq_true, Storage.overlaps_iff, Interval.overlaps, Bool.and_eq_true,
    decide_eq_true_iff, decide_eq_true_iff]

theorem conflicts_comm (left right : PlanEntry) : left.conflicts right = right.conflicts left := by
  rw [Bool.eq_iff_iff, conflicts_iff, conflicts_iff]
  simp only [and_comm]

/-- The tensor is live at the position and its slot covers the address. -/
def Owns (entry : PlanEntry) (position address : Nat) : Prop :=
  entry.interval.contains position = true ∧ entry.storage.Covers address

theorem owns_iff {entry : PlanEntry} {position address : Nat} :
    entry.Owns position address ↔
      (entry.interval.start ≤ position ∧ position ≤ entry.interval.stop) ∧
        entry.storage.Covers address := by
  simp [Owns, Interval.contains]

/-- Entries whose live intervals have a position are in conflict when both own some address at one
position. -/
theorem conflicts_iff_owns {left right : PlanEntry}
    (leftLive : left.interval.start ≤ left.interval.stop)
    (rightLive : right.interval.start ≤ right.interval.stop) :
    left.conflicts right = true ↔
      ∃ position address, left.Owns position address ∧ right.Owns position address := by
  rw [conflicts_iff]
  constructor
  · rintro ⟨_, address, covers, covered⟩
    refine ⟨max left.interval.start right.interval.start, address, ?_, ?_⟩
    · exact owns_iff.mpr ⟨by omega, covers⟩
    · exact owns_iff.mpr ⟨by omega, covered⟩
  · rintro ⟨position, address, owns, owned⟩
    have first := owns_iff.mp owns
    have second := owns_iff.mp owned
    exact ⟨by omega, address, first.2, second.2⟩

end PlanEntry

namespace Plan

/-- Of all pairs in conflict, the one that is found is the first. -/
theorem conflictIn?_eq_some {entries : List PlanEntry} {left right : PlanEntry}
    (found : conflictIn? entries = some (left, right)) :
    ∃ i j, i < j ∧ entries[i]? = some left ∧ entries[j]? = some right ∧
      left.conflicts right = true ∧
        ∀ (k l : Nat) (first second : PlanEntry), k < l → entries[k]? = some first →
          entries[l]? = some second → first.conflicts second = true → i < k ∨ i = k ∧ j ≤ l := by
  induction entries with
  | nil => cases found
  | cons entry rest ih =>
    rw [conflictIn?] at found
    cases chosen : rest.find? entry.conflicts with
    | some other =>
      rw [chosen] at found
      obtain ⟨rfl, rfl⟩ := Prod.mk.inj (Option.some.inj found)
      obtain ⟨conflict, j, bound, isOther, before⟩ := List.find?_eq_some_iff_getElem.mp chosen
      refine ⟨0, j + 1, Nat.zero_lt_succ j, rfl, ?_, conflict, ?_⟩
      · rw [List.getElem?_cons_succ, List.getElem?_eq_getElem bound, isOther]
      · intro k l first second order isFirst isSecond clash
        cases k with
        | succ k => exact .inl (Nat.zero_lt_succ k)
        | zero =>
          right
          refine ⟨rfl, ?_⟩
          obtain ⟨l, rfl⟩ : ∃ m, l = m + 1 := ⟨l - 1, by omega⟩
          obtain rfl := Option.some.inj isFirst
          rw [List.getElem?_cons_succ] at isSecond
          obtain ⟨inside, rfl⟩ := List.getElem?_eq_some_iff.mp isSecond
          by_contra earlier
          have free := before l (by omega)
          simp [clash] at free
    | none =>
      rw [chosen] at found
      obtain ⟨i, j, order, isLeft, isRight, conflict, least⟩ := ih found
      refine ⟨i + 1, j + 1, Nat.succ_lt_succ order, isLeft, isRight, conflict, ?_⟩
      intro k l first second below isFirst isSecond clash
      obtain ⟨l, rfl⟩ : ∃ m, l = m + 1 := ⟨l - 1, by omega⟩
      rw [List.getElem?_cons_succ] at isSecond
      cases k with
      | zero =>
        -- The first entry is in conflict with none of the others.
        obtain rfl := Option.some.inj isFirst
        have free := List.find?_eq_none.mp chosen second (List.mem_of_getElem? isSecond)
        exact absurd clash free
      | succ k =>
        have := least k l first second (Nat.lt_of_succ_lt_succ below) isFirst isSecond clash
        omega

/-- The entries at the two indices, the lower one first, both own some address at one position. -/
def Contends (plan : Plan) (i j : Nat) : Prop :=
  i < j ∧ ∃ left right, plan.entries[i]? = some left ∧ plan.entries[j]? = some right ∧
    ∃ position address, left.Owns position address ∧ right.Owns position address

/-- The check of a plan is sound and complete, wherever the plan puts its tensors. If every live
interval has a position, the check passes exactly if at each position every address is owned by one
entry at most. Otherwise it finds, and names, the pair of entries that comes first among all pairs
that contend for an address, in the order of the first entry and then of the second. -/
theorem verify_exact (plan : Plan)
    (live : ∀ entry ∈ plan.entries, entry.interval.start ≤ entry.interval.stop) :
    (plan.verify = .ok () ↔ ∀ (position address i j : Nat) (left right : PlanEntry),
        plan.entries[i]? = some left → plan.entries[j]? = some right →
        left.Owns position address → right.Owns position address → i = j) ∧
      (plan.verify ≠ .ok () → ∃ i j left right, plan.Contends i j ∧
        (∀ k l, plan.Contends k l → i < k ∨ i = k ∧ j ≤ l) ∧
        plan.entries[i]? = some left ∧ plan.entries[j]? = some right ∧
        plan.conflict? = some (left, right) ∧
        plan.verify = .error (.overlap left.name right.name)) := by
  have conflicts : ∀ {i j : Nat} {left right : PlanEntry}, plan.entries[i]? = some left →
      plan.entries[j]? = some right → (left.conflicts right = true ↔
        ∃ position address, left.Owns position address ∧ right.Owns position address) :=
    fun isLeft isRight => PlanEntry.conflicts_iff_owns
      (live _ (List.mem_of_getElem? isLeft)) (live _ (List.mem_of_getElem? isRight))
  constructor
  · rw [verify_eq_ok_iff, List.pairwise_iff_getElem]
    constructor
    · -- Contenders at different indices would be a pair in conflict.
      intro apart position address i j left right isLeft isRight owns owned
      obtain ⟨boundLeft, rfl⟩ := List.getElem?_eq_some_iff.mp isLeft
      obtain ⟨boundRight, rfl⟩ := List.getElem?_eq_some_iff.mp isRight
      rcases Nat.lt_trichotomy i j with below | same | above
      · have clash := (conflicts isLeft isRight).mpr ⟨position, address, owns, owned⟩
        exact absurd clash (by simp [apart i j boundLeft boundRight below])
      · exact same
      · have clash := (conflicts isRight isLeft).mpr ⟨position, address, owned, owns⟩
        exact absurd clash (by simp [apart j i boundRight boundLeft above])
    · intro single i j boundLeft boundRight below
      by_contra clash
      rw [Bool.not_eq_false] at clash
      have isLeft := List.getElem?_eq_getElem boundLeft
      have isRight := List.getElem?_eq_getElem boundRight
      obtain ⟨position, address, owns, owned⟩ := (conflicts isLeft isRight).mp clash
      have same := single position address i j _ _ isLeft isRight owns owned
      omega
  · intro refused
    cases found : plan.conflict? with
    | none =>
      refine absurd ?_ refused
      rw [verify, found]
    | some pair =>
      obtain ⟨left, right⟩ := pair
      obtain ⟨i, j, order, isLeft, isRight, clash, least⟩ := conflictIn?_eq_some found
      have contends := (conflicts isLeft isRight).mp clash
      refine ⟨i, j, left, right, ⟨order, left, right, isLeft, isRight, contends⟩, ?_, isLeft,
        isRight, rfl, by rw [verify, found]⟩
      rintro k l ⟨below, first, second, isFirst, isSecond, both⟩
      exact least k l first second below isFirst isSecond ((conflicts isFirst isSecond).mpr both)

/-- Five tensors, the last of which lies across the second and the third. -/
def tangle : Plan where
  entries := [
    ⟨"a", .input, .arena 0 4, 1, ⟨0, 1⟩, none, some 0⟩,
    ⟨"b", .input, .arena 4 4, 1, ⟨0, 3⟩, none, some 2⟩,
    ⟨"c", .intermediate, .arena 0 4, 1, ⟨2, 4⟩, some 0, some 3⟩,
    ⟨"d", .intermediate, .arena 6 0, 1, ⟨1, 4⟩, none, some 3⟩,
    ⟨"e", .intermediate, .arena 2 4, 0, ⟨2, 2⟩, some 0, some 1⟩]
  arenaSize := 8
  alignment := 4

theorem tangle_verified :
    (∀ entry ∈ tangle.entries, entry.interval.start ≤ entry.interval.stop) ∧
      tangle.verify = .error (.overlap "b" "e") ∧
      (∃ i j left right, tangle.Contends i j ∧ tangle.entries[i]? = some left ∧
        tangle.entries[j]? = some right ∧ tangle.conflict? = some (left, right)) ∧
      ¬ ∀ (position address i j : Nat) (left right : PlanEntry),
        tangle.entries[i]? = some left → tangle.entries[j]? = some right →
        left.Owns position address → right.Owns position address → i = j := by
  have live : ∀ entry ∈ tangle.entries, entry.interval.start ≤ entry.interval.stop := by decide
  have refused : tangle.verify ≠ .ok () := by decide
  obtain ⟨i, j, left, right, contends, _, isLeft, isRight, found, _⟩ :=
    (verify_exact tangle live).2 refused
  exact ⟨live, by decide, ⟨i, j, left, right, contends, isLeft, isRight, found⟩,
    fun single => refused ((verify_exact tangle live).1.mpr single)⟩

end Plan

end TensorArena
