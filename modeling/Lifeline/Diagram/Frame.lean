import Lifeline.Diagram.Stream

/-! Blocks that are open, and the statements that they become when they close. -/

set_option autoImplicit false

namespace Lifeline

def Block.word (opener : Token) : Block → String
  | .alt => "alt"
  | .loop => "loop"
  | .par => "par"
  | .opt => "opt"
  | .breakOut | .critical | .group => Text.asciiLower opener.text

/-- Whether a block is read only so that its `end` has a partner. -/
def Block.isUnsupported : Block → Bool
  | .breakOut | .critical | .group => true
  | _ => false

def Block.unsupported (block : Block) (opener : Token) : String :=
  "Unsupported block: " ++ block.word opener

def Block.splitsAt : Block → Token.Kind → Bool
  | .alt, .elseMark | .par, .elseMark | .par, .alsoMark => true
  | _, _ => false

/-- An open block. Lists are newest first. -/
structure Frame where
  block : Block
  opener : Token
  branches : List Branch
  mark : Token
  label : String
  before : List Statement

namespace Frame

def branch (frame : Frame) (inner : List Statement) (reached : Nat) : Branch :=
  .mk frame.label inner.reverse ((Span.ofToken frame.mark).upTo reached)

def allBranches (frame : Frame) (inner : List Statement) (reached : Nat) : List Branch :=
  (frame.branch inner reached :: frame.branches).reverse

/-- The statement that a block becomes: its last branch ends at one offset, the block at another. -/
def close (frame : Frame) (inner : List Statement) (branchReached reached : Nat) : Statement :=
  let span := (Span.ofToken frame.opener).upTo reached
  match frame.block with
  | .alt =>
    let branches := frame.allBranches inner branchReached
    .alternative ((branches.head?.map Branch.condition).getD "") branches span
  | .par => .parallel (frame.allBranches inner branchReached) span
  | .loop => .loop frame.label inner.reverse span
  | .opt => .optional frame.label inner.reverse span
  | .breakOut | .critical | .group => .error (frame.block.unsupported frame.opener) span

def unclosed (frame : Frame) (current : Token) : Diagnostic :=
  .syntaxAt ("Expected end for " ++ frame.block.word frame.opener ++ " block") current

end Frame

end Lifeline
