import Mathlib.Data.List.Nodup
import TensorArena.Text.Order

/-!
# Finding things by their names

In a list whose items have distinct names, a name determines the item and its position. Names that
are sorted stand in ascending order.
-/

set_option autoImplicit false

namespace TensorArena

variable {α β : Type}

theorem find?_named_iff (name : α → String) {items : List α}
    (distinct : (items.map name).Nodup) {key : String} {item : α} :
    (items.find? fun other => name other == key) = some item ↔ item ∈ items ∧ name item = key := by
  constructor
  · intro found
    exact ⟨List.mem_of_find?_eq_some found, by simpa using List.find?_some found⟩
  · rintro ⟨member, rfl⟩
    induction items with
    | nil => cases member
    | cons first rest ih =>
      rw [List.map_cons, List.nodup_cons] at distinct
      rcases List.mem_cons.mp member with rfl | member
      · simp
      · have other : name first ≠ name item := by
          intro same
          exact distinct.1 (List.mem_map.mpr ⟨item, member, same.symm⟩)
        simp [other, ih distinct.2 member]

theorem find?_named_eq_none_iff (name : α → String) {items : List α} {key : String} :
    (items.find? fun other => name other == key) = none ↔ key ∉ items.map name := by
  simp

theorem eq_of_name_eq (name : α → String) {items : List α} (distinct : (items.map name).Nodup)
    {first second : α} (left : first ∈ items) (right : second ∈ items)
    (same : name first = name second) : first = second := by
  have found := (find?_named_iff name distinct).mpr ⟨left, same⟩
  exact Option.some.inj (found.symm.trans ((find?_named_iff name distinct).mpr ⟨right, rfl⟩))

theorem index_eq_of_name_eq (name : α → String) {items : List α}
    (distinct : (items.map name).Nodup) {i j : Nat} {first second : α}
    (left : items[i]? = some first) (right : items[j]? = some second)
    (same : name first = name second) : i = j := by
  have inside := (List.getElem?_eq_some_iff.mp left).1
  refine (List.getElem?_inj (by simpa using inside) distinct).mp ?_
  simp only [List.getElem?_map, left, right, Option.map_some, same]

/-- The names that are left stay new when the first of them is done. -/
theorem fresh_append {done rest : List String} {name : String} (distinct : name ∉ rest)
    (fresh : ∀ other ∈ name :: rest, other ∉ done) : ∀ other ∈ rest, other ∉ done ++ [name] := by
  intro other listed repeated
  rcases List.mem_append.mp repeated with before | same
  · exact fresh other (List.mem_cons_of_mem _ listed) before
  · exact distinct (List.mem_singleton.mp same ▸ listed)

theorem sortNames_perm (names : List String) : (sortNames names).Perm names :=
  List.mergeSort_perm names _

theorem sortNames_ascending (names : List String) : (sortNames names).Pairwise (· ≤ ·) := by
  have sorted : (sortNames names).Pairwise fun left right => decide (left ≤ right) = true :=
    List.pairwise_mergeSort (fun first second third => by simpa using String.le_trans)
      (fun first second => by simpa using String.le_total first second) names
  exact sorted.imp of_decide_eq_true

theorem lookup_eq_some_iff_mem {pairs : List (String × β)}
    (distinct : (pairs.map Prod.fst).Nodup) {key : String} {value : β} :
    pairs.lookup key = some value ↔ (key, value) ∈ pairs := by
  induction pairs with
  | nil => simp
  | cons pair rest ih =>
    obtain ⟨other, stored⟩ := pair
    rw [List.map_cons, List.nodup_cons] at distinct
    rw [List.lookup_cons, List.mem_cons]
    by_cases same : key = other
    · subst same
      have absent : (key, value) ∉ rest :=
        fun member => distinct.1 (List.mem_map.mpr ⟨_, member, rfl⟩)
      simp [absent, eq_comm]
    · have unlike : (key == other) = false := by simpa using same
      simp [unlike, same, ih distinct.2]

theorem lookup_eq_none_iff {pairs : List (String × β)} {key : String} :
    pairs.lookup key = none ↔ key ∉ pairs.map Prod.fst := by
  rw [List.lookup_eq_none_iff, List.mem_map]
  constructor
  · intro unlike ⟨pair, member, same⟩
    exact absurd same.symm (by simpa using unlike pair member)
  · intro absent pair member
    exact bne_iff_ne.mpr fun same => absent ⟨pair, member, same.symm⟩

end TensorArena
