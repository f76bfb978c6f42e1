import TensorArena.Json.Decoder
import TensorArena.Proofs.Results

/-!
# Decoding what has been encoded

Each encoding of a value as JSON is undone by its decoder: integers in their ranges, texts, lists,
optional fields and records with distinct names. A list is not decoded if one of its items is not.
Nesting is the number of brackets that are open at once.
-/

set_option autoImplicit false

namespace TensorArena.Json

/-! ### Scalars -/

theorem toInt?_ofInt (value : Int) : (Number.ofInt value).toInt? = some value := by
  unfold Number.ofInt Number.toInt?
  by_cases negative : value < 0
  · have notZero : value.natAbs ≠ 0 := by omega
    have opposite : -(value.natAbs : Int) = value := by omega
    simp only [negative, decide_true, List.isEmpty_nil, Option.isNone_none, Bool.and_self,
      if_true, if_neg notZero, opposite]
  · have same : (value.natAbs : Int) = value := by omega
    simp only [negative, decide_false, List.isEmpty_nil, Option.isNone_none, Bool.and_self,
      if_true, Bool.false_eq_true, if_false, same]

theorem intBetween?_ofInt {least greatest value : Int} (above : least ≤ value)
    (below : value ≤ greatest) : intBetween? least greatest (ofInt value) = some value := by
  simp [intBetween?, ofInt, toInt?_ofInt, above, below]

@[simp] theorem uint64?_ofNat (value : UInt64) : (ofNat value.toNat).uint64? = some value := by
  have below := value.toNat_lt
  have read : intBetween? 0 0xFFFFFFFFFFFFFFFF (ofNat value.toNat) = some (value.toNat : Int) :=
    intBetween?_ofInt (by omega) (by omega)
  simp [uint64?, size?, read]

@[simp] theorem int64?_ofInt (value : Int64) : (ofInt value.toInt).int64? = some value := by
  have above := value.le_toInt
  have below := value.toInt_lt
  simp [int64?, intBetween?_ofInt (show -0x8000000000000000 ≤ value.toInt by omega)
    (show value.toInt ≤ 0x7FFFFFFFFFFFFFFF by omega)]

@[simp] theorem int32?_ofInt (value : Int32) : (ofInt value.toInt).int32? = some value := by
  have above := value.le_toInt
  have below := value.toInt_lt
  simp [int32?, intBetween?_ofInt (show -0x80000000 ≤ value.toInt by omega)
    (show value.toInt ≤ 0x7FFFFFFF by omega)]

@[simp] theorem text?_ofText (text : String) : (ofText text).text? = some text := rfl

theorem ofBinary32_eq_null {value : Binary32} (infinite : value.isFinite = false) :
    ofBinary32 value = .null := by
  simp [ofBinary32, infinite]

theorem ofBinary64_eq_null {value : Binary64} (infinite : value.isFinite = false) :
    ofBinary64 value = .null := by
  simp [ofBinary64, infinite]

/-! ### Lists -/

section

variable {α : Type} {decode : Json → Option α} {toJson : α → Json} {items : List α}

theorem list?_map (read : ∀ item ∈ items, decode (toJson item) = some item) :
    list? decode (.array (items.map toJson)) = some items := by
  refine mapM_eq_some_of_forall₂ ?_
  rw [List.forall₂_map_left_iff, List.forall₂_same]
  exact read

theorem list?_map_eq_none {item : α} (listed : item ∈ items)
    (unread : decode (toJson item) = none) :
    list? decode (.array (items.map toJson)) = none :=
  mapM_eq_none_of_mem (List.mem_map_of_mem listed) unread

@[simp] theorem texts?_ofTexts (texts : List String) : (ofTexts texts).texts? = some texts :=
  list?_map fun _ _ => rfl

/-! ### Fields -/

theorem optional?_map {value : Option α} (present : ∀ item ∈ value, toJson item ≠ .null)
    (read : ∀ item ∈ value, decode (toJson item) = some item) :
    optional? decode (value.map toJson) = some value := by
  cases value with
  | none => rfl
  | some item =>
    have present := present item rfl
    rw [Option.map_some, optional?.eq_3 decode _ present, read item rfl]
    rfl

theorem optional?_map_eq_none {item : α} (present : toJson item ≠ .null)
    (unread : decode (toJson item) = none) :
    optional? decode (Option.map toJson (some item)) = none := by
  rw [Option.map_some, optional?.eq_3 decode _ present, unread]
  rfl

end

/-- Members with distinct names have at most one of each name. -/
theorem filter_eq_lookup {members : List (String × Json)}
    (distinct : (members.map Prod.fst).Nodup) (name : String) :
    (members.filter fun member => member.1 == name) =
      ((members.lookup name).map fun value => (name, value)).toList := by
  induction members with
  | nil => rfl
  | cons member members ih =>
    obtain ⟨key, value⟩ := member
    obtain ⟨fresh, distinct⟩ := List.nodup_cons.mp distinct
    by_cases same : key = name
    · subst same
      have others : (members.filter fun member => member.1 == key) = [] := by
        refine List.filter_eq_nil_iff.mpr fun member listed same => fresh ?_
        exact List.mem_map.mpr ⟨member, listed, by simpa using same⟩
      rw [List.filter_cons_of_pos (by simp), others, List.lookup_cons_self]
      rfl
    · rw [List.filter_cons_of_neg (by simpa using same), ih distinct, List.lookup_cons,
        beq_eq_false_iff_ne.mpr (Ne.symm same)]

theorem field?_record {members : List (String × Json)}
    (distinct : (members.map Prod.fst).Nodup) (name : String) :
    field? (members.map fun member => (some member.1, member.2)) name =
      some (members.lookup name) := by
  have named : (fun member : Option String × Json => member.1 == some name) ∘
      (fun member : String × Json => (some member.1, member.2)) =
        fun member => member.1 == name := by
    funext member
    simp
  rw [field?, List.filter_map, named, filter_eq_lookup distinct]
  cases members.lookup name <;> rfl

theorem fields?_record {members : List (String × Json)}
    (distinct : (members.map Prod.fst).Nodup) (names : List String) :
    (record members).fields? names = some (names.map fun name => members.lookup name) := by
  have named : (members.map fun member => (some member.1, member.2)).all
      (fun member : Option String × Json => member.1.isSome) = true := by simp
  rw [record, fields?, if_pos named]
  refine mapM_eq_some_of_forall₂ ?_
  rw [List.forall₂_map_right_iff, List.forall₂_same]
  exact fun name _ => field?_record distinct name

/-! ### Nesting -/

mutual

/-- The greatest number of brackets that are open at once. -/
def nesting : Json → Nat
  | .array items => itemsNesting items + 1
  | .object members => membersNesting members + 1
  | _ => 0

def itemsNesting : List Json → Nat
  | [] => 0
  | item :: items => max (nesting item) (itemsNesting items)

def membersNesting : List (Option String × Json) → Nat
  | [] => 0
  | (_, value) :: members => max (nesting value) (membersNesting members)

end

theorem itemsNesting_le_iff {items : List Json} {most : Nat} :
    itemsNesting items ≤ most ↔ ∀ item ∈ items, item.nesting ≤ most := by
  induction items with
  | nil => simp [itemsNesting]
  | cons item items ih => rw [itemsNesting, Nat.max_le, ih, List.forall_mem_cons]

theorem membersNesting_le_iff {members : List (Option String × Json)} {most : Nat} :
    membersNesting members ≤ most ↔ ∀ member ∈ members, member.2.nesting ≤ most := by
  induction members with
  | nil => simp [membersNesting]
  | cons member members ih => rw [membersNesting, Nat.max_le, ih, List.forall_mem_cons]

@[simp] theorem nesting_array_le_iff {items : List Json} {most : Nat} :
    (array items).nesting ≤ most + 1 ↔ ∀ item ∈ items, item.nesting ≤ most := by
  simp [nesting, itemsNesting_le_iff]

@[simp] theorem nesting_record_le_iff {members : List (String × Json)} {most : Nat} :
    (record members).nesting ≤ most + 1 ↔ ∀ member ∈ members, member.2.nesting ≤ most := by
  rw [record, nesting, Nat.add_le_add_iff_right, membersNesting_le_iff, List.forall_mem_map]

@[simp] theorem nesting_ofText (text : String) : (ofText text).nesting = 0 := by
  simp [ofText, nesting]

@[simp] theorem nesting_ofInt (value : Int) : (ofInt value).nesting = 0 := by
  simp [ofInt, nesting]

@[simp] theorem nesting_ofNat (value : Nat) : (ofNat value).nesting = 0 := by
  simp [ofNat, nesting]

@[simp] theorem nesting_ofBinary32 (value : Binary32) : (ofBinary32 value).nesting = 0 := by
  unfold ofBinary32
  split <;> simp [nesting]

@[simp] theorem nesting_ofBinary64 (value : Binary64) : (ofBinary64 value).nesting = 0 := by
  unfold ofBinary64
  split <;> simp [nesting]

end TensorArena.Json
