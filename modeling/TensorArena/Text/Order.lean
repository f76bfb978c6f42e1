/-!
# Order of names

Names are listed in ascending order of their code points, which is that of their UTF-8 bytes.
-/

set_option autoImplicit false

namespace TensorArena

def sortNames (names : List String) : List String := names.mergeSort fun left right => left ≤ right

/-- Names in ascending order, each once. -/
def distinctNames (names : List String) : List String := sortNames names.eraseDups

end TensorArena
