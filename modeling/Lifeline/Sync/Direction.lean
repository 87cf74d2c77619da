/-! The two directions in which a text and a storyboard are brought into agreement. -/

set_option autoImplicit false

namespace Lifeline

inductive Direction where
  /-- The text is read and the storyboard follows. -/
  | toBoard
  /-- The storyboard is rendered and the text follows. -/
  | toCode
  deriving DecidableEq, Repr

namespace Direction

def word : Direction → String
  | .toBoard => "code-to-gui"
  | .toCode => "gui-to-code"

def all : List Direction := [toBoard, toCode]

end Direction

end Lifeline
