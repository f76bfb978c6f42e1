import TensorArena.Program.Context

/-!
# Sessions

A session is a sequence of requests to a context. A request that fails does not end it.
-/

set_option autoImplicit false

namespace TensorArena

inductive Request (World : Type) where
  | register (name : String) (storage : Storage) (refcount : Nat)
  | enqueue (evaluation : Evaluation World)
  | flush
  | finish (outputs : List String)

namespace Context

variable {World : Type}

def perform (context : Context World) : Request World → Outcome World
  | .register name storage refcount => context.register name storage refcount
  | .enqueue evaluation => context.enqueue evaluation
  | .flush => context.flush
  | .finish outputs => context.finish outputs

/-- The context after a session. -/
def performAll (context : Context World) (requests : List (Request World)) : Context World :=
  requests.foldl (fun context request => (context.perform request).2) context

end Context

end TensorArena
