import TensorArena.Numeric.Binary
import TensorArena.Text.Literal

/-!
# Construction parameters

The values that an operator instance is constructed with. Their order is significant.
-/

set_option autoImplicit false

namespace TensorArena

inductive Param where
  | int (value : Int64)
  | float (value : Binary64)
  | bool (value : Bool)
  | text (value : String)
  /-- Source text that is taken over as it is. -/
  | ident (value : String)
  | list (items : List Param)

inductive ParamKind where
  | int
  | float
  | bool
  | text
  | ident
  | list
deriving DecidableEq, Repr

namespace ParamKind

def all : List ParamKind := [int, float, bool, text, ident, list]

def name : ParamKind → String
  | int => "int"
  | float => "float"
  | bool => "bool"
  | text => "str"
  | ident => "ident"
  | list => "list"

/-- The name used in messages. -/
def title : ParamKind → String
  | int => "Int"
  | float => "Float"
  | bool => "Bool"
  | text => "Str"
  | ident => "Ident"
  | list => "List"

end ParamKind

namespace Param

def kind : Param → ParamKind
  | int _ => .int
  | float _ => .float
  | bool _ => .bool
  | text _ => .text
  | ident _ => .ident
  | list _ => .list

mutual

/-- Equality of parameters, with floating-point numbers compared numerically. -/
def same : Param → Param → Bool
  | int left, int right => left == right
  | float left, float right => left.same right
  | bool left, bool right => left == right
  | text left, text right => left == right
  | ident left, ident right => left == right
  | list left, list right => sameAll left right
  | _, _ => false

def sameAll : List Param → List Param → Bool
  | [], [] => true
  | left :: lefts, right :: rights => same left right && sameAll lefts rights
  | _, _ => false

end

mutual

/-- Replaces negative zero by zero at every depth; there is no result if a NaN occurs. -/
def normalize? : Param → Option Param
  | float value =>
    if value.isNaN then none
    else if value.isZero then some (float (.zero .double false))
    else some (float value)
  | list items => (normalizeAll? items).map list
  | other => some other

def normalizeAll? : List Param → Option (List Param)
  | [] => some []
  | item :: items => do return (← normalize? item) :: (← normalizeAll? items)

end

mutual

/-- The spelling of a parameter as a constructor argument. -/
def render : Param → String
  | int value => toString value.toInt
  | float value => Literal.double value
  | bool value => if value then "true" else "false"
  | text value => Literal.quoted value
  | ident value => value
  | list items => "\x7b" ++ ", ".intercalate (renderAll items) ++ "\x7d"

def renderAll : List Param → List String
  | [] => []
  | item :: items => render item :: renderAll items

end

end Param

end TensorArena
