/-! Sets of code points given by a table of ranges in ascending order. -/

set_option autoImplicit false

namespace Lifeline.Text

/-- Whether a code point lies in a table of closed ranges. The ranges ascend, so the search stops at
the first one that starts beyond it. -/
def inRanges (code : Nat) : List (Nat × Nat) → Bool
  | [] => false
  | (first, last) :: rest => first ≤ code && (code ≤ last || inRanges code rest)

end Lifeline.Text
