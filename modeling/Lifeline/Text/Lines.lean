import Lifeline.Text.Blank

/-! The lines of a text.

A line ends at a line feed, and a carriage return just before it belongs to the ending. A text that
ends with a line feed has no further, empty line. -/

set_option autoImplicit false

namespace Lifeline.Text

def isLineFeed (c : Char) : Bool := c == '\n'

def dropReturn (line : List Char) : List Char :=
  if line.getLast? = some '\r' then line.dropLast else line

/-- The pieces between line feeds, read as lines: only the last piece can lack an ending. -/
def linesOf : List (List Char) → List (List Char)
  | [] => []
  | [last] => if last.isEmpty then [] else [last]
  | line :: next :: rest => dropReturn line :: linesOf (next :: rest)

def lines (text : List Char) : List (List Char) :=
  linesOf (split isLineFeed text)

end Lifeline.Text
