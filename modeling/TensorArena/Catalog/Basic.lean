import TensorArena.Catalog.Descriptor
import TensorArena.Text.Order
import TensorArena.Text.Quoted

/-!
# Catalogs of handlers

A handler writes the code of one operator type. A catalog holds at most one handler for a type.
-/

set_option autoImplicit false

namespace TensorArena

structure Handler where
  descriptor : Descriptor
  declare : InstanceForm → String
  construct : InstanceForm → Option String
  evaluate : Call → String

/-- The handler that writes what its descriptor says. -/
def Handler.ofDescriptor (descriptor : Descriptor) : Handler where
  descriptor
  declare := descriptor.declare
  construct := descriptor.construct
  evaluate := Descriptor.evaluate

structure Catalog where
  handlers : List Handler := []

namespace Catalog

def get? (catalog : Catalog) (opType : String) : Option Handler :=
  catalog.handlers.find? fun handler => handler.descriptor.opType == opType

def contains (catalog : Catalog) (opType : String) : Bool := (catalog.get? opType).isSome

/-- Adds a handler in the stead of the one for its type. -/
def register (catalog : Catalog) (handler : Handler) : Catalog where
  handlers :=
    catalog.handlers.filter (fun other =>
      other.descriptor.opType != handler.descriptor.opType) ++ [handler]

def ofDescriptors (descriptors : List Descriptor) : Catalog :=
  (descriptors.map Handler.ofDescriptor).foldl register {}

/-- The operator types with a handler, sorted. -/
def opTypes (catalog : Catalog) : List String :=
  sortNames (catalog.handlers.map fun handler => handler.descriptor.opType)

/-- A line that shows the operator types of a catalog. -/
def describe (catalog : Catalog) : String :=
  "OperatorRegistry \x7b op_types: " ++ Quoted.quoteAll catalog.opTypes ++ " \x7d"

end Catalog

end TensorArena
