import Lifeline.Source.LineDifference

/-! Selections in a text, as byte offsets, and how they follow an edit. -/

set_option autoImplicit false

namespace Lifeline

structure Selection where
  start : Nat
  stop : Nat
  deriving DecidableEq, Repr

/-- The greatest offset not beyond the given one at which a character of the text starts or the text
ends. -/
def floorBoundary : List Char → Nat → Nat
  | [], _ => 0
  | c :: rest, offset =>
    if c.utf8Size ≤ offset then c.utf8Size + floorBoundary rest (offset - c.utf8Size) else 0

structure EditRegion where
  start : Nat
  oldStop : Nat
  newStop : Nat
  deriving DecidableEq, Repr

namespace EditRegion

def between (old new : List Char) : EditRegion :=
  let start := LineDifference.commonStart old new
  let (oldRest, newRest) := (old.drop start, new.drop start)
  let finish := LineDifference.commonStart oldRest.reverse newRest.reverse
  { start := Text.byteSize (old.take start)
    oldStop := Text.byteSize (old.take (old.length - finish))
    newStop := Text.byteSize (new.take (new.length - finish)) }

/-- Offsets before the region stay, those after it keep their distance to the end, and those inside
go to where the new part stops. Offsets have 64 bits, and a sum that has more loses them. -/
def move (region : EditRegion) (offset : Nat) : Nat :=
  if offset ≤ region.start then offset
  else if region.oldStop ≤ offset then
    (offset - region.oldStop + region.newStop) % UInt64.size
  else region.newStop

end EditRegion

namespace Selection

def clamp (selection : Selection) (text : List Char) : Selection :=
  ⟨floorBoundary text selection.start, floorBoundary text selection.stop⟩

def shift (selection : Selection) (old new : List Char) : Selection :=
  let region := EditRegion.between old new
  (Selection.mk (region.move selection.start) (region.move selection.stop)).clamp new

end Selection

end Lifeline
