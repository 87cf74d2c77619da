import Lifeline.Diagram.Basic

/-! The nodes of a document in the order in which the source opens them, and counts over them. -/

set_option autoImplicit false

namespace Lifeline

inductive NodeKind where
  | document | diagram | participant | message | alternative | branch | loop | parallel | optional
  | note | activation | deactivation | title | autonumber | error
  deriving DecidableEq, Repr

namespace NodeKind

def all : List NodeKind :=
  [document, diagram, participant, message, alternative, branch, loop, parallel, optional, note,
   activation, deactivation, title, autonumber, error]

def word : NodeKind → String
  | document => "document"
  | diagram => "diagram"
  | participant => "participant"
  | message => "message"
  | alternative => "alternative"
  | branch => "branch"
  | loop => "loop"
  | parallel => "parallel"
  | optional => "optional"
  | note => "note"
  | activation => "activation"
  | deactivation => "deactivation"
  | title => "title"
  | autonumber => "autonumber"
  | error => "error"

/-- Nodes that decide whether or how often what they hold happens. -/
def isControl : NodeKind → Bool
  | alternative | loop | parallel | optional => true
  | _ => false

end NodeKind

def Statement.kind : Statement → NodeKind
  | .participant .. => .participant
  | .message .. => .message
  | .alternative .. => .alternative
  | .loop .. => .loop
  | .parallel .. => .parallel
  | .optional .. => .optional
  | .note .. => .note
  | .activation .. => .activation
  | .deactivation .. => .deactivation
  | .title .. => .title
  | .autonumber .. => .autonumber
  | .error .. => .error

structure Node where
  kind : NodeKind
  statement : Option Statement

mutual

/-- A statement before all that it holds. -/
def Statement.nodes : Statement → List Node
  | .alternative condition branches span =>
    ⟨.alternative, some (.alternative condition branches span)⟩ :: nodesOfBranches branches
  | .parallel branches span =>
    ⟨.parallel, some (.parallel branches span)⟩ :: nodesOfBranches branches
  | .loop condition statements span =>
    ⟨.loop, some (.loop condition statements span)⟩ :: nodesOfStatements statements
  | .optional condition statements span =>
    ⟨.optional, some (.optional condition statements span)⟩ :: nodesOfStatements statements
  | statement => [⟨statement.kind, some statement⟩]

def nodesOfStatements : List Statement → List Node
  | [] => []
  | statement :: rest => statement.nodes ++ nodesOfStatements rest

def Branch.nodes : Branch → List Node
  | .mk _ statements _ => ⟨.branch, none⟩ :: nodesOfStatements statements

def nodesOfBranches : List Branch → List Node
  | [] => []
  | branch :: rest => branch.nodes ++ nodesOfBranches rest

end

def Diagram.nodes (diagram : Diagram) : List Node :=
  ⟨.diagram, none⟩ :: nodesOfStatements diagram.statements

def Document.nodes (document : Document) : List Node :=
  ⟨.document, none⟩ :: document.diagrams.flatMap Diagram.nodes

structure Statistics where
  counts : NodeKind → Nat

namespace Statistics

def ofDocument (document : Document) : Statistics :=
  let kinds := document.nodes.map Node.kind
  ⟨fun kind => kinds.count kind⟩

def total (statistics : Statistics) : Nat :=
  (NodeKind.all.map statistics.counts).foldr (· + ·) 0

def occurring (statistics : Statistics) : List (NodeKind × Nat) :=
  (NodeKind.all.map fun kind => (kind, statistics.counts kind)).filter (·.2 ≠ 0)

def participants (statistics : Statistics) : Nat := statistics.counts .participant

def messages (statistics : Statistics) : Nat := statistics.counts .message

def errors (statistics : Statistics) : Nat := statistics.counts .error

def controlStructures (statistics : Statistics) : Nat :=
  ((NodeKind.all.filter NodeKind.isControl).map statistics.counts).foldr (· + ·) 0

end Statistics

end Lifeline
