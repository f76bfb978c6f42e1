import Mathlib.Algebra.Order.Ring.Nat
import TensorArena.Tensor.Basic

/-!
# Sizes of tensors

The length of a tensor is the product of its dimensions and the width of an element. It is found by
multiplying from the left, so it is refused as soon as the product of the first dimensions is no
size. Where no dimension is zero that happens exactly if the length itself is no size.
-/

set_option autoImplicit false

namespace TensorArena

theorem size?_eq_some_iff {value size : Nat} :
    size? value = some size ↔ size = value ∧ value < sizeLimit := by
  unfold size?
  split
  · rename_i fits
    simp [fits, eq_comm]
  · rename_i large
    simp [large]

namespace Tensor

/-- The product of the first dimensions of a shape. -/
def leadingProduct (shape : List UInt64) (count : Nat) : Nat :=
  ((shape.take count).map UInt64.toNat).prod

/-- The number of elements as a number of any size. -/
def elements (tensor : Tensor) : Nat := (tensor.shape.map UInt64.toNat).prod

@[simp] theorem leadingProduct_zero (shape : List UInt64) : leadingProduct shape 0 = 1 := rfl

@[simp] theorem leadingProduct_cons_succ (dim : UInt64) (rest : List UInt64) (count : Nat) :
    leadingProduct (dim :: rest) (count + 1) = dim.toNat * leadingProduct rest count := by
  simp [leadingProduct]

/-- Multiplying from the left succeeds when all products on the way are sizes. -/
theorem foldlM_size?_eq_some_iff {shape : List UInt64} {start product : Nat}
    (small : start < sizeLimit) :
    shape.foldlM (fun count dim => size? (count * dim.toNat)) start = some product ↔
      product = start * (shape.map UInt64.toNat).prod ∧
        ∀ count, start * leadingProduct shape count < sizeLimit := by
  induction shape generalizing start with
  | nil => simp [leadingProduct, small, eq_comm]
  | cons dim rest ih =>
    rw [List.foldlM_cons, Option.bind_eq_bind, Option.bind_eq_some_iff]
    constructor
    · rintro ⟨next, sized, more⟩
      obtain ⟨rfl, fits⟩ := size?_eq_some_iff.mp sized
      obtain ⟨whole, products⟩ := (ih fits).mp more
      refine ⟨by rw [whole, List.map_cons, List.prod_cons, Nat.mul_assoc], fun count => ?_⟩
      cases count with
      | zero => simpa using small
      | succ count =>
        rw [leadingProduct_cons_succ, ← Nat.mul_assoc]
        exact products count
    · rintro ⟨whole, products⟩
      have later : ∀ count, start * dim.toNat * leadingProduct rest count < sizeLimit := by
        intro count
        rw [Nat.mul_assoc, ← leadingProduct_cons_succ]
        exact products (count + 1)
      have fits : start * dim.toNat < sizeLimit := by simpa using later 0
      refine ⟨start * dim.toNat, size?_eq_some_iff.mpr ⟨rfl, fits⟩, (ih fits).mpr ⟨?_, later⟩⟩
      rw [whole, List.map_cons, List.prod_cons, Nat.mul_assoc]

theorem elementCount?_eq_some_iff {tensor : Tensor} {count : Nat} :
    tensor.elementCount? = some count ↔
      count = tensor.elements ∧ ∀ first, leadingProduct tensor.shape first < sizeLimit := by
  unfold elementCount?
  rw [foldlM_size?_eq_some_iff (by decide)]
  simp only [Nat.one_mul, elements]

theorem byteLength?_eq_some_iff {tensor : Tensor} {length : Nat} :
    tensor.byteLength? = some length ↔
      (length = tensor.elements * tensor.kind.width ∧ length < sizeLimit) ∧
        ∀ count, leadingProduct tensor.shape count < sizeLimit := by
  unfold byteLength?
  rw [Option.bind_eq_bind, Option.bind_eq_some_iff]
  constructor
  · rintro ⟨count, counted, sized⟩
    obtain ⟨rfl, products⟩ := elementCount?_eq_some_iff.mp counted
    obtain ⟨rfl, fits⟩ := size?_eq_some_iff.mp sized
    exact ⟨⟨rfl, fits⟩, products⟩
  · rintro ⟨⟨rfl, fits⟩, products⟩
    exact ⟨_, elementCount?_eq_some_iff.mpr ⟨rfl, products⟩, size?_eq_some_iff.mpr ⟨rfl, fits⟩⟩

/-- Without a zero among the dimensions no product on the way exceeds the last one. -/
theorem leadingProduct_le {shape : List UInt64} (solid : 0 ∉ shape) (count : Nat) :
    leadingProduct shape count ≤ (shape.map UInt64.toNat).prod := by
  have split : leadingProduct shape count * ((shape.drop count).map UInt64.toNat).prod =
      (shape.map UInt64.toNat).prod := by
    rw [leadingProduct, ← List.prod_append, ← List.map_append, List.take_append_drop]
  have positive : 0 < ((shape.drop count).map UInt64.toNat).prod := by
    rw [List.prod_pos_iff_forall_pos_nat, List.forall_mem_map]
    intro dim listed
    have nonzero : dim ≠ 0 := fun same => solid (same ▸ List.mem_of_mem_drop listed)
    exact Nat.pos_of_ne_zero fun zero => nonzero (UInt64.toNat_inj.mp zero)
  rw [← split]
  exact Nat.le_mul_of_pos_right _ positive

/-- A tensor without a zero among its dimensions has a length exactly if its length is a size. -/
theorem byteLength?_of_solid {tensor : Tensor} (solid : 0 ∉ tensor.shape) :
    tensor.byteLength? = size? (tensor.elements * tensor.kind.width) := by
  apply Option.ext
  intro length
  rw [byteLength?_eq_some_iff, size?_eq_some_iff]
  constructor
  · rintro ⟨⟨rfl, fits⟩, _⟩
    exact ⟨rfl, fits⟩
  · rintro ⟨rfl, fits⟩
    refine ⟨⟨rfl, fits⟩, fun count => ?_⟩
    have width : 0 < tensor.kind.width := by cases tensor.kind <;> decide
    have whole := leadingProduct_le solid count
    have wide := Nat.le_mul_of_pos_right tensor.elements width
    exact Nat.lt_of_le_of_lt (Nat.le_trans whole wide) fits

/-- The length of a tensor is its number of elements times the width of one. It is defined exactly
if it is a size and so is the product of any number of first dimensions. Where no dimension is zero
the length alone decides, and the order of the dimensions is of no account. -/
theorem byteLength?_exact (tensor : Tensor) :
    (∀ length, tensor.byteLength? = some length ↔
      (length = tensor.elements * tensor.kind.width ∧ length < sizeLimit) ∧
        ∀ count, leadingProduct tensor.shape count < sizeLimit) ∧
      (0 ∉ tensor.shape →
        tensor.byteLength? = size? (tensor.elements * tensor.kind.width) ∧
          ∀ other : Tensor, other.kind = tensor.kind → other.shape.Perm tensor.shape →
            other.byteLength? = tensor.byteLength?) := by
  refine ⟨fun length => byteLength?_eq_some_iff, fun solid =>
    ⟨byteLength?_of_solid solid, fun other sameKind permuted => ?_⟩⟩
  have otherSolid : 0 ∉ other.shape := fun zero => solid (permuted.mem_iff.mp zero)
  have sameElements : other.elements = tensor.elements := (permuted.map UInt64.toNat).prod_nat
  rw [byteLength?_of_solid otherSolid, byteLength?_of_solid solid, sameElements, sameKind]

/-- A tensor without elements whose first two dimensions are too large for a product. -/
def hollow : Tensor := { name := "hollow", kind := .si8, shape := [9223372036854775808, 2, 0] }

/-- The hollow tensor has no bytes, but a length only if its dimensions stand the other way
round. -/
theorem hollow_has_no_length :
    hollow.elements * hollow.kind.width = 0 ∧ hollow.byteLength? = none ∧
      { hollow with shape := hollow.shape.reverse }.byteLength? = some 0 := by
  decide

end Tensor

end TensorArena
