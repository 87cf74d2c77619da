import Lifeline.Token.Basic

/-! Sequence diagrams as trees.

A document holds diagrams, a diagram statements. Some statements are blocks and hold statements of
their own, in branches or directly. Every node knows the range of the source that it was read from. -/

set_option autoImplicit false

namespace Lifeline

/-- A range of the source: the line and column of its start, and the byte offsets of both ends. -/
structure Span where
  line : Nat
  column : Nat
  start : Nat
  stop : Nat
  deriving DecidableEq, Repr

namespace Span

/-- The range of something that was not read from any source. -/
def none : Span := ⟨0, 0, 0, 0⟩

def ofToken (token : Token) : Span :=
  ⟨token.line, token.column, token.offset, token.stop⟩

def upTo (span : Span) (stop : Nat) : Span :=
  { span with stop := max stop span.stop }

end Span

inductive NoteSide where
  | left | right | over
  deriving DecidableEq, Repr

def NoteSide.word : NoteSide → String
  | .left => "left"
  | .right => "right"
  | .over => "over"

def NoteSide.all : List NoteSide := [.left, .right, .over]

mutual

inductive Statement where
  | participant (role : Role) (name : String) (nickname : Option String) (span : Span)
  | message (source target text arrow : String) (isAsync isReturn : Bool) (span : Span)
  /-- Several branches, of which the first has the condition of the whole. -/
  | alternative (condition : String) (branches : List Branch) (span : Span)
  | loop (condition : String) (statements : List Statement) (span : Span)
  | parallel (branches : List Branch) (span : Span)
  | optional (condition : String) (statements : List Statement) (span : Span)
  | note (text : String) (target : Option String) (side : NoteSide) (span : Span)
  | activation (target : String) (span : Span)
  | deactivation (target : String) (span : Span)
  | title (text : String) (span : Span)
  | autonumber (first : Option Nat) (span : Span)
  /-- What stands for a block that is read but not kept. -/
  | error (message : String) (span : Span)

inductive Branch where
  | mk (condition : String) (statements : List Statement) (span : Span)

end

namespace Branch

def condition : Branch → String
  | mk condition _ _ => condition

def statements : Branch → List Statement
  | mk _ statements _ => statements

def span : Branch → Span
  | mk _ _ span => span

end Branch

def Statement.span : Statement → Span
  | .participant _ _ _ span | .message _ _ _ _ _ _ span | .alternative _ _ span | .loop _ _ span
  | .parallel _ span | .optional _ _ span | .note _ _ _ span | .activation _ span
  | .deactivation _ span | .title _ span | .autonumber _ span | .error _ span => span

structure Diagram where
  statements : List Statement
  span : Span
  terminated : Bool

structure Document where
  diagrams : List Diagram
  span : Span

def Document.statements (document : Document) : List Statement :=
  document.diagrams.flatMap Diagram.statements

end Lifeline
