import Lifeline.Diagram.Leaf
import Lifeline.Diagram.Frame

/-! From a stream of tokens to a document: a machine that reads statement after statement.

The machine keeps the blocks that are open, so that it can go on from any point of the source with
what it has. Every step reads at least one token. Nothing stops it: what is wrong is reported, left
out, and the reading goes on. -/

set_option autoImplicit false

namespace Lifeline

/-- A reading under way. Lists are newest first. -/
structure Parsing where
  stream : Stream
  /-- The start of the diagram being read; none between diagrams. -/
  diagram : Option Token
  frames : List Frame
  statements : List Statement
  diagrams : List Diagram
  issues : List Diagnostic

structure Parsed where
  document : Document
  issues : List Diagnostic

namespace Parsing

def start (stream : Stream) : Parsing := ⟨stream, none, [], [], [], []⟩

def report (parsing : Parsing) (issue : Diagnostic) : Parsing :=
  { parsing with issues := issue :: parsing.issues }

def accept (parsing : Parsing) (leaf : Leaf) : Parsing :=
  { parsing with
    stream := leaf.left
    statements := leaf.statement.toList ++ parsing.statements
    issues := leaf.issue.toList ++ parsing.issues }

def push (parsing : Parsing) (block : Block) (opener : Token) : Parsing :=
  let (label, stream) := parsing.stream.label
  { parsing with
    stream := stream
    frames := ⟨block, opener, [], opener, label, parsing.statements⟩ :: parsing.frames
    statements := []
    issues :=
      if block.isUnsupported then .syntaxAt (block.unsupported opener) opener :: parsing.issues
      else parsing.issues }

def split (parsing : Parsing) (frame : Frame) (frames : List Frame) (mark : Token) (reached : Nat) :
    Parsing :=
  let (label, stream) := parsing.stream.label
  let branches := frame.branch parsing.statements reached :: frame.branches
  { parsing with
    stream := stream
    frames := { frame with branches := branches, mark := mark, label := label } :: frames
    statements := [] }

def pop (parsing : Parsing) (frame : Frame) (frames : List Frame) (reached : Nat) : Parsing :=
  let statement := frame.close parsing.statements reached parsing.stream.reached
  { parsing with frames := frames, statements := statement :: frame.before }

/-- Closes every open block where its `end` should be. -/
def abandon (current : Token) (reached : Nat) :
    List Frame → List Statement → List Diagnostic → List Statement × List Diagnostic
  | [], statements, issues => (statements, issues)
  | frame :: frames, statements, issues =>
    abandon current reached frames (frame.close statements reached reached :: frame.before)
      (frame.unclosed current :: issues)

def finish (parsing : Parsing) (opened current : Token) (reached : Nat) : Parsing :=
  let (statements, issues) :=
    abandon current reached parsing.frames parsing.statements parsing.issues
  let terminated := current.kind == .endUml
  let diagram : Diagram :=
    ⟨statements.reverse, (Span.ofToken opened).upTo parsing.stream.reached, terminated⟩
  { parsing with
    diagram := none
    frames := []
    statements := []
    diagrams := diagram :: parsing.diagrams
    issues := if terminated then issues else .syntaxAt "Expected @enduml" current :: issues }

def leaf (token : Token) (stream : Stream) : Leaf :=
  match token.kind with
  | .participant role => .participant role token stream
  | .title => .title token stream
  | .note => .note token stream
  | .activate => .activation token stream
  | .deactivate => .deactivation token stream
  | .autonumber => .autonumber token stream
  | .skinparam => .skinparam stream
  | _ => .message token stream

/-- Reads from a token inside a diagram; the stream is after the token and `reached` before it. -/
def inside (parsing : Parsing) (opened token : Token) (reached : Nat) : Parsing :=
  match token.kind, parsing.frames with
  | .endUml, _ => parsing.finish opened token reached
  | .opener block, _ => parsing.push block token
  | .endMark, frame :: frames => parsing.pop frame frames reached
  | kind, frame :: frames =>
    if frame.block.splitsAt kind then parsing.split frame frames token reached
    else parsing.accept (leaf token parsing.stream)
  | _, [] => parsing.accept (leaf token parsing.stream)

def outside (parsing : Parsing) (token : Token) : Parsing :=
  if token.kind = .startUml then { parsing with diagram := some token }
  else parsing.report (.syntaxAt ("Unexpected token: " ++ token.text) token)

def step (parsing : Parsing) (token : Token) : Parsing :=
  let reached := parsing.stream.reached
  let after := { parsing with stream := parsing.stream.drop 1 }
  match parsing.diagram with
  | some opened => after.inside opened token reached
  | none => after.outside token

theorem follows_leaf (token : Token) (stream : Stream) :
    (leaf token stream).left.Follows stream := by
  unfold leaf
  split
  · exact Leaf.follows_participant _ _ _
  · exact Stream.follows_skip _ _
  · exact Leaf.follows_note _ _
  · exact Leaf.follows_onName _ _ _ _
  · exact Leaf.follows_onName _ _ _ _
  · exact Leaf.follows_autonumber _ _
  · exact Stream.follows_skip _ _
  · exact Leaf.follows_message _ _

theorem follows_inside (parsing : Parsing) (opened token : Token) (reached : Nat) :
    (parsing.inside opened token reached).stream.Follows parsing.stream := by
  unfold inside
  split
  · exact Stream.Follows.refl _
  · exact Stream.follows_skip _ _
  · exact Stream.Follows.refl _
  · split
    · exact Stream.follows_skip _ _
    · exact follows_leaf _ _
  · exact follows_leaf _ _

theorem follows_outside (parsing : Parsing) (token : Token) :
    (parsing.outside token).stream.Follows parsing.stream := by
  unfold outside
  split <;> exact Stream.Follows.refl _

theorem follows_step (parsing : Parsing) (token : Token) :
    (parsing.step token).stream.Follows (parsing.stream.drop 1) := by
  unfold step
  dsimp only
  split
  · exact follows_inside _ _ _ _
  · exact follows_outside _ _

def skipSeparators (parsing : Parsing) : Parsing :=
  { parsing with stream := parsing.stream.skipSeparators }

def run (parsing : Parsing) : Parsing :=
  let next := parsing.skipSeparators
  if next.stream.atEnd then next else (next.step next.stream.peek).run
termination_by parsing.stream.remaining
decreasing_by
  rename_i inside
  have solid : next.stream.peek.kind ≠ .eof := fun eof => inside (beq_iff_eq.2 eof)
  exact Nat.lt_of_le_of_lt (follows_step _ _).remaining_le
    (Nat.lt_of_lt_of_le (Stream.remaining_drop_one_lt solid)
      (Stream.follows_skip parsing.stream _).remaining_le)

/-- At the end of the stream no diagram stays open. -/
def complete (parsing : Parsing) : Parsing :=
  match parsing.diagram with
  | none => parsing
  | some opened => parsing.finish opened parsing.stream.peek parsing.stream.reached

end Parsing

def parse (tokens : List Token) : Parsed :=
  let stream := Stream.ofTokens tokens
  let parsing := (Parsing.start stream).run.complete
  { document := ⟨parsing.diagrams.reverse,
      (Span.ofToken stream.peek).upTo parsing.stream.peek.stop⟩
    issues := parsing.issues.reverse }

end Lifeline
