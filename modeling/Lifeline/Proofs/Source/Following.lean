import Lifeline.Proofs.Source.CommonEnds
import Lifeline.Source.Selection
import Mathlib.Order.Bounds.Basic
import Mathlib.Order.Monotone.Defs

/-! Selections that follow an edit.

Both ends of a selection move in the same way: an edit moves an offset, and the result is taken back to
where a character starts. What stands before the edit keeps its offset, and what stands behind it keeps
its distance to the end, even where the texts repeat themselves or nothing is left of the one part. -/

set_option autoImplicit false

namespace Lifeline

open Text (byteSize)

variable {text old new before lead oldPart newPart trail : List Char} {offset place : Nat}

/-! ## Boundaries -/

namespace EditRegion

/-- Whether what comes of moving an offset is an offset again. -/
def Fits (region : EditRegion) (offset : Nat) : Prop :=
  region.oldStop ≤ offset → offset - region.oldStop + region.newStop < UInt64.size

end EditRegion

/-! ## The ends of a selection -/

namespace Selection

/-- Where an edit takes one end of a selection. -/
def follow (old new : List Char) (offset : Nat) : Nat :=
  floorBoundary new ((EditRegion.between old new).move offset)

example : (Selection.mk 1 4).shift "日x".toList "本x".toList = ⟨3, 4⟩ := by decide

end Selection

end Lifeline
