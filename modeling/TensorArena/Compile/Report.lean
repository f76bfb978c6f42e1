import TensorArena.Compile.Basic

/-!
# Reports

The summary of a compilation as a JSON document.
-/

set_option autoImplicit false

namespace TensorArena

def Storage.toJson : Storage → Json
  | arena offset size =>
    .record [("arena", .record [("offset", .ofNat offset), ("size", .ofNat size)])]
  | rom => .ofText "rom"

def Interval.toJson (interval : Interval) : Json :=
  .record [("start", .ofNat interval.start), ("end", .ofNat interval.stop)]

namespace Model

def entryJson (entry : PlanEntry) : Json :=
  .record
    [("name", .ofText entry.name), ("role", .ofText entry.role.name),
      ("placement", entry.storage.toJson), ("refcount", .ofNat entry.refcount),
      ("live_range", entry.interval.toJson),
      ("released_after", .ofOption Json.ofNat entry.releasedAfter)]

def instanceJson (shared : Instance) : Json :=
  .record
    [("var", .ofText shared.symbol), ("op_type", .ofText shared.key.opType),
      ("namespace", .ofText shared.key.family),
      ("evaluations", .ofNat shared.occurrences.length)]

/-- The number of flushes in the program. -/
def flushCount (model : Model) : Nat := model.steps.count .flush

def report (model : Model) : Json :=
  .record
    [("graph", .ofText model.graph.name), ("model_name", .ofText model.name),
      ("fingerprint", .ofText (Fingerprint.hex model.fingerprint)),
      ("arena_size", .ofNat model.plan.arenaSize), ("peak_bytes", .ofNat model.plan.peakBytes),
      ("alignment", .ofNat model.plan.alignment), ("flushes", .ofNat model.flushCount),
      ("tensors", .array (model.plan.entries.map entryJson)),
      ("instances", .array (model.table.instances.map instanceJson))]

end Model

end TensorArena
