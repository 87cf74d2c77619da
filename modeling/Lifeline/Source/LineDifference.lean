import Lifeline.Text.Lines

/-! How many lines differ between two texts.

Lines that both texts start or end with are set aside. Of the others, those in a longest common
subsequence count as kept, unless the two parts are so long that none are looked for. -/

set_option autoImplicit false

namespace Lifeline

structure LineDifference where
  added : Nat
  removed : Nat
  oldLength : Nat
  newLength : Nat
  deriving DecidableEq, Repr

namespace LineDifference

def commonStart {α : Type} [DecidableEq α] : List α → List α → Nat
  | a :: as, b :: bs => if a = b then commonStart as bs + 1 else 0
  | _, _ => 0

/-- One row of the table of common lengths, from the row above; `left` is the entry to the left. -/
def nextRow {α : Type} [DecidableEq α] (item : α) (left : Nat) : List α → List Nat → List Nat
  | other :: others, diagonal :: above :: row =>
    let entry := if item = other then diagonal + 1 else max left above
    entry :: nextRow item entry others (above :: row)
  | _, _ => []

def lastRow {α : Type} [DecidableEq α] (first second : List α) : List Nat :=
  first.foldl (fun row item => 0 :: nextRow item 0 second row) (List.replicate (second.length + 1) 0)

def commonLength {α : Type} [DecidableEq α] (first second : List α) : Nat :=
  (lastRow first second).getLast?.getD 0

/-- The size of table beyond which no common subsequence is looked for. -/
def maxCells : Nat := 1000000

def betweenLists {α : Type} [DecidableEq α] (old new : List α) : LineDifference :=
  let start := commonStart old new
  let (oldRest, newRest) := (old.drop start, new.drop start)
  let finish := commonStart oldRest.reverse newRest.reverse
  let oldPart := oldRest.take (oldRest.length - finish)
  let newPart := newRest.take (newRest.length - finish)
  let common :=
    if maxCells < oldPart.length * newPart.length then 0 else commonLength oldPart newPart
  ⟨newPart.length - common, oldPart.length - common, old.length, new.length⟩

def between (old new : String) : LineDifference :=
  let lines (text : String) := (Text.lines text.toList).map String.ofList
  betweenLists (lines old) (lines new)

def isUnchanged (difference : LineDifference) : Bool :=
  difference.added == 0 && difference.removed == 0

end LineDifference

end Lifeline
