import Mathlib.Algebra.Order.Ring.Nat
import Mathlib.Data.List.Nodup
import Mathlib.Data.List.Perm.Subperm
import TensorArena.Arena.Gaps
import TensorArena.Arena.Plan

/-!
# Addresses

A slot and a gap are sets of addresses. Slots that share no address are together no larger than
the arena that holds them.
-/

set_option autoImplicit false

namespace TensorArena

namespace Storage

/-- The address belongs to the slot. -/
def Covers : Storage → Nat → Prop
  | arena offset size, address => offset ≤ address ∧ address < offset + size
  | rom, _ => False

/-- The addresses of the slot in ascending order. -/
def addresses : Storage → List Nat
  | arena offset size => List.range' offset size
  | rom => []

/-- The address past the last one of the slot. -/
def stop : Storage → Nat
  | arena offset size => offset + size
  | rom => 0

theorem mem_addresses (storage : Storage) (address : Nat) :
    address ∈ storage.addresses ↔ storage.Covers address := by
  cases storage with
  | arena offset size => simp [addresses, Covers, List.mem_range'_1]
  | rom => simp [addresses, Covers]

theorem nodup_addresses (storage : Storage) : storage.addresses.Nodup := by
  cases storage with
  | arena offset size => exact List.nodup_range'
  | rom => exact List.nodup_nil

@[simp] theorem length_addresses (storage : Storage) :
    storage.addresses.length = storage.arenaSize := by
  cases storage <;> simp [addresses, arenaSize]

theorem Covers.lt_stop {storage : Storage} {address : Nat} (covers : storage.Covers address) :
    address < storage.stop := by
  cases storage with
  | arena offset size => exact covers.2
  | rom => exact covers.elim

theorem Covers.ne_rom {storage : Storage} {address : Nat} (covers : storage.Covers address) :
    storage ≠ .rom := by
  rintro rfl
  exact covers

/-- Two storages overlap when some address belongs to both. -/
theorem overlaps_iff (left right : Storage) :
    left.overlaps right = true ↔ ∃ address, left.Covers address ∧ right.Covers address := by
  cases left with
  | rom => simp [overlaps, Covers]
  | arena offset size =>
    cases right with
    | rom => simp [overlaps, Covers]
    | arena other otherSize =>
      simp only [overlaps, Covers, Bool.and_eq_true, decide_eq_true_eq]
      constructor
      · rintro ⟨⟨⟨_, _⟩, _⟩, _⟩
        exact ⟨max offset other, by omega, by omega⟩
      · rintro ⟨address, _, _⟩
        omega

end Storage

theorem length_flatMap_addresses (storages : List Storage) :
    (storages.flatMap Storage.addresses).length = totalSize (storages.map Storage.arenaSize) := by
  induction storages with
  | nil => rfl
  | cons storage rest ih => simp [totalSize, ih]

theorem totalSize_eq_sum (sizes : List Nat) : totalSize sizes = sizes.sum := by
  induction sizes with
  | nil => rfl
  | cons size rest ih => rw [totalSize, List.sum_cons, ih]

theorem mem_flatMap_addresses {storages : List Storage} {address : Nat} :
    address ∈ storages.flatMap Storage.addresses ↔
      ∃ storage ∈ storages, storage.Covers address := by
  simp only [List.mem_flatMap, Storage.mem_addresses]

section Apart

variable {storages : List Storage}
  (apart : storages.Pairwise fun left right =>
    ∀ address, left.Covers address → ¬ right.Covers address)

include apart

theorem nodup_flatMap_addresses : (storages.flatMap Storage.addresses).Nodup := by
  rw [List.nodup_flatMap]
  refine ⟨fun storage _ => storage.nodup_addresses, apart.imp ?_⟩
  intro left right separate address inLeft inRight
  exact separate address ((left.mem_addresses address).mp inLeft)
    ((right.mem_addresses address).mp inRight)

/-- Slots without a common address take no more bytes than the arena around them has. -/
theorem totalSize_le_of_apart (bound : Nat)
    (inside : ∀ storage ∈ storages, storage.stop ≤ bound) :
    totalSize (storages.map Storage.arenaSize) ≤ bound := by
  have below : storages.flatMap Storage.addresses ⊆ List.range bound := by
    intro address member
    obtain ⟨storage, listed, covered⟩ := mem_flatMap_addresses.mp member
    rw [List.mem_range]
    exact Nat.lt_of_lt_of_le covered.lt_stop (inside storage listed)
  have count := (List.subperm_of_subset (nodup_flatMap_addresses apart) below).length_le
  rw [length_flatMap_addresses, List.length_range] at count
  exact count

/-- Slots without a common address that leave none out take all bytes of the arena. -/
theorem totalSize_eq_of_tiled (bound : Nat)
    (tiled : ∀ address, (∃ storage ∈ storages, storage.Covers address) ↔ address < bound) :
    totalSize (storages.map Storage.arenaSize) = bound := by
  have whole : (storages.flatMap Storage.addresses).Perm (List.range bound) := by
    refine (List.perm_ext_iff_of_nodup (nodup_flatMap_addresses apart) List.nodup_range).mpr ?_
    intro address
    rw [mem_flatMap_addresses, tiled, List.mem_range]
  rw [← length_flatMap_addresses, whole.length_eq, List.length_range]

end Apart

/-- The address belongs to the gap. -/
def Gap.Covers (gap : Gap) (address : Nat) : Prop := gap.offset ≤ address ∧ address < gap.stop

end TensorArena
