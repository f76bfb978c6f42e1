import TensorArena.Json.Basic
import TensorArena.Numeric.Evaluation

/-!
# Decoding JSON values

A record is written as an object, in which members with other names are passed over and no field
occurs twice, or as the array of its fields in order, from which fields at the end may be missing.
-/

set_option autoImplicit false

namespace TensorArena.Json

/-- The value of a field, if there is one; there is no answer if there are several. -/
def field? (members : List (Option String × Json)) (name : String) : Option (Option Json) :=
  match members.filter fun member => member.1 == some name with
  | [] => some none
  | [(_, value)] => some (some value)
  | _ => none

/-- The values of the fields of a record. -/
def fields? (names : List String) : Json → Option (List (Option Json))
  | .object members =>
    if members.all fun member => member.1.isSome then names.mapM (field? members) else none
  | .array items =>
    if items.length ≤ names.length then
      some (items.map some ++ List.replicate (names.length - items.length) none)
    else none
  | _ => none

/-- A field that may be missing or null. -/
def optional? {α : Type} (decode : Json → Option α) : Option Json → Option (Option α)
  | none => some none
  | some .null => some none
  | some value => (decode value).map some

def orDefault? {α : Type} (default : α) (decode : Json → Option α) : Option Json → Option α
  | none => some default
  | some value => decode value

def text? : Json → Option String
  | .string text => text
  | _ => none

def bool? : Json → Option Bool
  | .bool value => some value
  | _ => none

def list? {α : Type} (decode : Json → Option α) : Json → Option (List α)
  | .array items => items.mapM decode
  | _ => none

def texts? : Json → Option (List String) := list? text?

/-- An integer from `least` up to `greatest`. -/
def intBetween? (least greatest : Int) : Json → Option Int
  | .number value =>
    match value.toInt? with
    | some value => if least ≤ value && value ≤ greatest then some value else none
    | none => none
  | _ => none

def size? (json : Json) : Option Nat := (intBetween? 0 0xFFFFFFFFFFFFFFFF json).map Int.toNat

def uint64? (json : Json) : Option UInt64 := json.size?.map UInt64.ofNat

def int64? (json : Json) : Option Int64 :=
  (intBetween? (-0x8000000000000000) 0x7FFFFFFFFFFFFFFF json).map Int64.ofInt

def int32? (json : Json) : Option Int32 :=
  (intBetween? (-0x80000000) 0x7FFFFFFF json).map Int32.ofInt

def binary64? : Json → Option Binary64
  | .number value => value.toBinary64?
  | _ => none

def binary32? : Json → Option Binary32
  | .number value => value.toBinary32?
  | _ => none

/-- A name without contents, written as a string or as an object that gives it null. -/
def variant? : Json → Option String
  | .string text => text
  | .object [(some name, .null)] => some name
  | _ => none

mutual

/-- Whether every string and number can be read and at most `room` brackets are nested. -/
def isReadable : Nat → Json → Bool
  | _, .null => true
  | _, .bool _ => true
  | _, .number value => value.toBinary64?.isSome
  | _, .string text => text.isSome
  | room, .array items => 0 < room && areReadable (room - 1) items
  | room, .object members => 0 < room && membersReadable (room - 1) members

def areReadable : Nat → List Json → Bool
  | _, [] => true
  | room, item :: items => isReadable room item && areReadable room items

def membersReadable : Nat → List (Option String × Json) → Bool
  | _, [] => true
  | room, (key, value) :: members =>
    key.isSome && isReadable room value && membersReadable room members

end

end TensorArena.Json
