import Lifeline.Text.Blank

/-! Places in a text: the line and column of a character, both from one, and its byte offset. -/

set_option autoImplicit false

namespace Lifeline

structure Position where
  line : Nat
  column : Nat
  offset : Nat
  deriving DecidableEq, Repr

namespace Position

def start : Position := ⟨1, 1, 0⟩

def next (position : Position) (c : Char) : Position :=
  if c = '\n' then ⟨position.line + 1, 1, position.offset + c.utf8Size⟩
  else ⟨position.line, position.column + 1, position.offset + c.utf8Size⟩

def advance (position : Position) (text : List Char) : Position :=
  text.foldl next position

@[simp] theorem advance_nil (position : Position) : position.advance [] = position := rfl

@[simp] theorem advance_cons (position : Position) (c : Char) (text : List Char) :
    position.advance (c :: text) = (position.next c).advance text := rfl

theorem advance_append (position : Position) (first second : List Char) :
    position.advance (first ++ second) = (position.advance first).advance second := by
  simp [advance]

theorem offset_advance (position : Position) (text : List Char) :
    (position.advance text).offset = position.offset + Text.byteSize text := by
  induction text generalizing position with
  | nil => rfl
  | cons c rest ih =>
    rw [advance_cons, ih, Text.byteSize_cons, ← Nat.add_assoc]
    congr 1
    unfold next
    split <;> rfl

end Position

end Lifeline
