import Lifeline.Diagram.Stream
import Lifeline.Text.Digits
import Lifeline.Token.Vocabulary

/-! Statements that hold no other statements.

Each reading starts just after the token that selects it and tells what is left of the stream. A
reading that fails reports once, at the token that it cannot go on with, and gives up the rest of
the line. -/

set_option autoImplicit false

namespace Lifeline

structure Leaf where
  statement : Option Statement
  issue : Option Diagnostic
  left : Stream

namespace Leaf

def fail (message : String) (stream : Stream) : Leaf :=
  ⟨none, some (.syntaxAt message stream.peek), stream.skipLine⟩

def spanFrom (token : Token) (stream : Stream) : Span :=
  (Span.ofToken token).upTo stream.reached

/-- A participant's nickname after `as`; the report is about an `as` without one. -/
def nickname (stream : Stream) : Option String × Option Diagnostic × Stream :=
  if stream.atWord "as" then
    let stream := stream.drop 1
    match stream.name? with
    | some (token, stream) => (some token.value, none, stream)
    | none => (none, some (.syntaxAt "Expected participant alias" stream.peek), stream)
  else (none, none, stream)

/-- A participant: what follows its names on the line is not looked at. -/
def participant (role : Role) (keyword : Token) (stream : Stream) : Leaf :=
  match stream.name? with
  | none => fail "Expected participant name" stream
  | some (name, stream) =>
    let (short, issue, stream) := nickname stream
    ⟨some (.participant role name.value short (spanFrom keyword stream)), issue, stream.skipLine⟩

/-- A message from a token that has been read. A token that names nobody is given up, with all up
to the next token that can start a statement. -/
def message (sender : Token) (stream : Stream) : Leaf :=
  if sender.kind.isName then
    if stream.atKind .arrow then
      let arrow := stream.peek
      match (stream.drop 1).name? with
      | none => fail "Expected message receiver" (stream.drop 1)
      | some (receiver, stream) =>
        let (text, stream) := if stream.atKind .colon then (stream.drop 1).restOfLine else ("", stream)
        let way := Token.arrowClass? arrow.text
        ⟨some (.message sender.value receiver.value text arrow.text (way == some .async)
          (way == some .reply) (spanFrom sender stream)), none, stream⟩
    else fail "Expected arrow" stream
  else ⟨none, some (.syntaxAt "Expected message sender" sender), stream.synchronize⟩

def title (keyword : Token) (stream : Stream) : Leaf :=
  let (text, stream) := stream.restOfLine
  ⟨some (.title text (spanFrom keyword stream)), none, stream⟩

def autonumber (keyword : Token) (stream : Stream) : Leaf :=
  let first := if stream.atKind .identifier then Text.numberBelow? UInt32.size stream.peek.text.toList
    else none
  let stream := if first.isSome then stream.drop 1 else stream
  -- A step and a format may follow; neither is looked at.
  ⟨some (.autonumber first (spanFrom keyword stream)), none, stream.skipLine⟩

def onName (missing : String) (statement : String → Span → Statement) (keyword : Token)
    (stream : Stream) : Leaf :=
  match stream.name? with
  | none => fail missing stream
  | some (target, stream) => ⟨some (statement target.value (spanFrom keyword stream)), none, stream⟩

def activation : Token → Stream → Leaf := onName "Expected target for activation" .activation

def deactivation : Token → Stream → Leaf := onName "Expected target for deactivation" .deactivation

def skinparam (stream : Stream) : Leaf := ⟨none, none, stream.skipLine⟩

def furtherNames (stream : Stream) : List Token × Stream :=
  -- A comma that no name follows is left unread.
  if stream.atKind .comma && (stream.peekAt 1).kind.isName then
    let (names, left) := furtherNames (stream.drop 2)
    (stream.peekAt 1 :: names, left)
  else ([], stream)
termination_by stream.remaining
decreasing_by
  rename_i further
  have comma : stream.peek.kind = .comma := eq_of_beq (Bool.and_eq_true_iff.1 further).1
  have shorter : (stream.drop 1).remaining < stream.remaining :=
    Stream.remaining_drop_one_lt (by simp [comma])
  exact Nat.lt_of_le_of_lt (Stream.follows_drop (stream.drop 1) 1).remaining_le shorter

def targets (stream : Stream) : Option String × Stream :=
  match stream.name? with
  | none => (none, stream)
  | some (first, stream) =>
    let (further, stream) := furtherNames stream
    (some (", ".intercalate ((first :: further).map Token.value)), stream)

def atEndNote (stream : Stream) : Bool :=
  stream.atKind .endMark && (stream.peekAt 1).kind == .note

/-- The lines of a note up to `end note`; none when the diagram ends before. -/
def noteBody (stream : Stream) : Option (List String) × Stream :=
  let line := stream.skipSeparators
  if line.atEnd || line.atKind .endUml then (none, line)
  else if atEndNote line then (some [], line.drop 2)
  else
    let (lines, left) := noteBody line.restOfLine.2
    (lines.map (line.restOfLine.1 :: ·), left)
termination_by stream.remaining
decreasing_by
  rename_i goesOn _
  have solid : Stream.separators line.peek.kind = false := Stream.kinds_peek_skip _ _
  have inside : Stream.endsLine line.peek.kind = false := by
    simpa [Stream.endsLine, show line.peek.kind.isSeparator = false from solid, Stream.atEnd,
      Stream.atKind] using goesOn
  exact Nat.lt_of_lt_of_le (Stream.remaining_restOfLine_lt inside)
    (Stream.follows_skip stream _).remaining_le

/-- Where a note stands: its side, the participants beside it and what follows; none for a note
over nobody. -/
def placement (stream : Stream) : Option (NoteSide × Option String) × Stream :=
  if stream.atWord "left" || stream.atWord "right" then
    let side := if stream.atWord "left" then .left else .right
    let stream := stream.drop 1
    let stream := if stream.atWord "of" then stream.drop 1 else stream
    let (target, stream) := targets stream
    (some (side, target), stream)
  else if stream.atWord "over" then
    match targets (stream.drop 1) with
    | (some target, stream) => (some (.over, some target), stream)
    | (none, stream) => (none, stream)
  else (some (.right, none), stream)

def note (keyword : Token) (stream : Stream) : Leaf :=
  match placement stream with
  | (none, stream) => fail "Expected note target" stream
  | (some (side, target), stream) =>
    if stream.atKind .colon then
      let (text, stream) := (stream.drop 1).restOfLine
      ⟨some (.note text target side (spanFrom keyword stream)), none, stream⟩
    else if Stream.endsLine stream.peek.kind then
      match noteBody stream with
      | (none, stream) => fail "Expected end note" stream
      | (some lines, stream) =>
        ⟨some (.note ("\n".intercalate lines) target side (spanFrom keyword stream)), none, stream⟩
    else fail "Expected ':' after note" stream

/-! ## What a reading leaves

No reading of a statement puts tokens back or changes them: it goes on in the stream that it was
given. So whatever holds of all tokens of a source holds of the tokens that any statement sees. -/

open Lifeline.Stream (Follows follows_drop follows_skip follows_dropIf follows_name?)

theorem follows_nickname (stream : Stream) : (nickname stream).2.2.Follows stream := by
  unfold nickname
  split
  · dsimp only
    split
    · rename_i found
      exact (follows_name? found).trans (follows_drop _ _)
    · exact follows_drop _ _
  · exact Follows.refl _

theorem follows_participant (role : Role) (keyword : Token) (stream : Stream) :
    (participant role keyword stream).left.Follows stream := by
  unfold participant
  split
  · exact follows_skip _ _
  · rename_i found
    exact (follows_skip _ _).trans ((follows_nickname _).trans (follows_name? found))

theorem follows_message (sender : Token) (stream : Stream) :
    (message sender stream).left.Follows stream := by
  unfold message
  split
  · split
    · dsimp only
      split
      · exact (follows_skip _ _).trans (follows_drop _ _)
      · rename_i found
        have receiver := (follows_name? found).trans (follows_drop _ _)
        refine Follows.trans ?_ receiver
        dsimp only
        split
        · exact (follows_skip _ _).trans (follows_drop _ _)
        · exact Follows.refl _
    · exact follows_skip _ _
  · exact follows_skip _ _

theorem follows_autonumber (keyword : Token) (stream : Stream) :
    (autonumber keyword stream).left.Follows stream :=
  (follows_skip _ _).trans (follows_dropIf _ _ _)

theorem follows_onName (missing : String) (statement : String → Span → Statement) (keyword : Token)
    (stream : Stream) : (onName missing statement keyword stream).left.Follows stream := by
  unfold onName
  split
  · exact follows_skip _ _
  · rename_i found
    exact follows_name? found

theorem follows_furtherNames (stream : Stream) : (furtherNames stream).2.Follows stream := by
  fun_induction furtherNames stream with
  | case1 _ _ _ _ result ih =>
    rw [result] at ih
    exact ih.trans (follows_drop _ 2)
  | case2 => exact Follows.refl _

theorem follows_targets (stream : Stream) : (targets stream).2.Follows stream := by
  unfold targets
  split
  · exact Follows.refl _
  · rename_i found
    exact (follows_furtherNames _).trans (follows_name? found)

theorem follows_placement (stream : Stream) : (placement stream).2.Follows stream := by
  unfold placement
  split
  · exact (follows_targets _).trans ((follows_dropIf _ _ _).trans (follows_drop _ 1))
  · split
    · have follows := (follows_targets (stream.drop 1)).trans (follows_drop stream 1)
      split <;> rename_i same <;> rw [same] at follows <;> exact follows
    · exact Follows.refl _

theorem follows_noteBody (stream : Stream) : (noteBody stream).2.Follows stream := by
  fun_induction noteBody stream with
  | case1 => exact follows_skip _ _
  | case2 => exact (follows_drop _ _).trans (follows_skip _ _)
  | case3 _ _ _ _ _ _ result ih =>
    rw [result] at ih
    exact ih.trans ((follows_skip _ _).trans (follows_skip _ _))

theorem follows_note (keyword : Token) (stream : Stream) :
    (note keyword stream).left.Follows stream := by
  have placed := follows_placement stream
  unfold note
  split
  · rename_i same
    rw [same] at placed
    exact (follows_skip _ _).trans placed
  · rename_i stream' same
    rw [same] at placed
    refine Follows.trans ?_ placed
    split
    · exact (follows_skip _ _).trans (follows_drop _ _)
    · split
      · have body := follows_noteBody stream'
        split
        · rename_i same
          rw [same] at body
          exact (follows_skip _ _).trans body
        · rename_i same
          rw [same] at body
          exact body
      · exact follows_skip _ _

end Leaf

end Lifeline
