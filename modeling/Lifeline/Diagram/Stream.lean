import Lifeline.Diagram.Basic
import Lifeline.Diagnostic

/-! Tokens that are read from left to right.

A stream stands at a cursor among its tokens, which can be any: an end mark may be missing, or stand
before other tokens. No reading passes one. -/

set_option autoImplicit false

namespace Lifeline

structure Stream where
  tokens : List Token
  beyond : Token
  ends : beyond.kind = .eof
  cursor : Nat
  deriving DecidableEq, Repr

/-- Kinds of tokens that a reading can pass over. -/
structure Token.Kinds where
  has : Kind → Bool
  eof : has .eof = false

instance : CoeFun Token.Kinds fun _ => Token.Kind → Bool := ⟨Token.Kinds.has⟩

theorem Token.Kinds.ne_eof (kinds : Kinds) {kind : Kind} (goesOn : kinds kind = true) :
    kind ≠ .eof := by
  rintro rfl
  rw [kinds.eof] at goesOn
  cases goesOn

namespace Stream

open Token (Kind Kinds)

/-- The end mark behind tokens: the last of them, or one just after it. -/
def endAfter : Option Token → Token
  | none => .endOfInput 1 1 0
  | some last =>
    if last.kind = .eof then last
    else .endOfInput last.line (last.column + last.text.length) last.stop

theorem kind_endAfter (last : Option Token) : (endAfter last).kind = .eof := by
  unfold endAfter
  split
  · rfl
  · split
    · assumption
    · rfl

def ofTokens (tokens : List Token) : Stream where
  tokens := tokens
  beyond := endAfter tokens.getLast?
  ends := kind_endAfter _
  cursor := 0

def peekAt (stream : Stream) (count : Nat) : Token :=
  stream.tokens[stream.cursor + count]?.getD stream.beyond

def peek (stream : Stream) : Token := stream.peekAt 0

def atEnd (stream : Stream) : Bool := stream.peek.kind == .eof

/-- The number of tokens that have not been read, those behind an end mark included. -/
def remaining (stream : Stream) : Nat := stream.tokens.length - stream.cursor

theorem cursor_lt (stream : Stream) (inside : stream.peek.kind ≠ .eof) :
    stream.cursor < stream.tokens.length := by
  refine Nat.lt_of_not_le fun behind => inside ?_
  rw [peek, peekAt, Nat.add_zero, List.getElem?_eq_none behind]
  exact stream.ends

/-- Reads a token; at an end mark the stream stays where it is. -/
def advance (stream : Stream) : Stream :=
  if stream.atEnd then stream else { stream with cursor := stream.cursor + 1 }

def drop (stream : Stream) : Nat → Stream
  | 0 => stream
  | count + 1 => stream.advance.drop count

def skip (stream : Stream) (kinds : Kinds) : Stream :=
  if kinds stream.peek.kind then { stream with cursor := stream.cursor + 1 }.skip kinds else stream
termination_by stream.remaining
decreasing_by
  have inside := stream.cursor_lt (kinds.ne_eof ‹_›)
  simp only [remaining]
  omega

def run (stream : Stream) (kinds : Kinds) : List Token :=
  stream.tokens.extract stream.cursor (stream.skip kinds).cursor

def reached (stream : Stream) : Nat :=
  match stream.cursor with
  | 0 => 0
  | last + 1 => (stream.tokens[last]?.getD stream.beyond).stop

def endsLine (kind : Kind) : Bool :=
  kind.isSeparator || kind == .eof || kind == .endUml

def separators : Kinds := ⟨Kind.isSeparator, rfl⟩

def inLine : Kinds := ⟨fun kind => !endsLine kind, rfl⟩

def isLabelled (kind : Kind) : Bool :=
  !endsLine kind && !kind.isBlockBoundary && kind != .startUml

def labelled : Kinds := ⟨isLabelled, rfl⟩

def skipSeparators (stream : Stream) : Stream := stream.skip separators

/-- Leaves the rest of the line unread, up to a token that opens, splits or closes a block. -/
def skipLine (stream : Stream) : Stream :=
  stream.skip ⟨fun kind => !endsLine kind && !kind.isBlockBoundary, rfl⟩

def synchronize (stream : Stream) : Stream :=
  stream.skip ⟨fun kind =>
    kind != .eof && !(kind == .newline || kind == .startUml || kind == .endUml ||
      kind.isParticipant || kind.isBlockBoundary), rfl⟩

/-- The texts of tokens that follow an offset, one space wherever the source has a gap. -/
def joinFrom (reached : Nat) : List Token → String
  | [] => ""
  | token :: rest =>
    (if reached < token.offset then " " else "") ++ token.text ++ joinFrom token.stop rest

/-- The text that a run of tokens writes: the value of a single token, or the texts joined. -/
def join : List Token → String
  | [] => ""
  | [only] => only.value
  | token :: rest => token.text ++ joinFrom token.stop rest

def restOfLine (stream : Stream) : String × Stream :=
  (join (stream.run inLine), stream.skip inLine)

def label (stream : Stream) : String × Stream :=
  (join (stream.run labelled), stream.skip labelled)

def name? (stream : Stream) : Option (Token × Stream) :=
  if stream.peek.kind.isName then some (stream.peek, stream.drop 1) else none

def atWord (stream : Stream) (word : String) : Bool :=
  stream.peek.kind == .identifier && Text.asciiLower stream.peek.text == word

def atKind (stream : Stream) (kind : Kind) : Bool := stream.peek.kind == kind

/-! ## Streams that go on in others -/

/-- Whether a stream is what is left of another one after some tokens have been read. -/
def Follows (left stream : Stream) : Prop := ∃ count, left = stream.drop count

theorem drop_drop (stream : Stream) (first second : Nat) :
    (stream.drop first).drop second = stream.drop (first + second) := by
  induction first generalizing stream with
  | zero => rw [drop, Nat.zero_add]
  | succ first ih => rw [Nat.succ_add, drop, drop, ih]

theorem Follows.refl (stream : Stream) : stream.Follows stream := ⟨0, rfl⟩

theorem Follows.trans {first second third : Stream} (one : first.Follows second)
    (two : second.Follows third) : first.Follows third := by
  obtain ⟨count, rfl⟩ := one
  obtain ⟨earlier, rfl⟩ := two
  exact ⟨earlier + count, drop_drop _ _ _⟩

theorem follows_drop (stream : Stream) (count : Nat) : (stream.drop count).Follows stream :=
  ⟨count, rfl⟩

theorem advance_eq {stream : Stream} (inside : stream.peek.kind ≠ .eof) :
    stream.advance = { stream with cursor := stream.cursor + 1 } := by
  rw [advance, atEnd, beq_eq_false_iff_ne.2 inside, if_neg Bool.false_ne_true]

theorem drop_one_eq {stream : Stream} (inside : stream.peek.kind ≠ .eof) :
    stream.drop 1 = { stream with cursor := stream.cursor + 1 } :=
  advance_eq inside

theorem skip_of_goesOn {stream : Stream} {kinds : Kinds} (goesOn : kinds stream.peek.kind = true) :
    stream.skip kinds = (stream.drop 1).skip kinds := by
  rw [skip, if_pos goesOn, drop_one_eq (kinds.ne_eof goesOn)]

theorem skip_of_stops {stream : Stream} {kinds : Kinds} (stops : ¬kinds stream.peek.kind = true) :
    stream.skip kinds = stream := by
  rw [skip, if_neg stops]

theorem skip_induct {motive : Stream → Prop} (kinds : Kinds)
    (goesOn : ∀ stream : Stream, kinds stream.peek.kind = true → motive (stream.drop 1) →
      motive stream)
    (stops : ∀ stream : Stream, ¬kinds stream.peek.kind = true → motive stream) (stream : Stream) :
    motive stream := by
  induction stream using skip.induct kinds with
  | case1 stream next ih => exact goesOn stream next (drop_one_eq (kinds.ne_eof next) ▸ ih)
  | case2 stream ends => exact stops stream ends

theorem follows_skip (stream : Stream) (kinds : Kinds) : (stream.skip kinds).Follows stream := by
  induction stream using skip_induct kinds with
  | goesOn stream next ih => exact skip_of_goesOn next ▸ ih.trans (follows_drop _ 1)
  | stops stream ends =>
    rw [skip_of_stops ends]
    exact .refl _

theorem follows_dropIf (stream : Stream) (count : Nat) (condition : Prop) [Decidable condition] :
    (if condition then stream.drop count else stream).Follows stream := by
  split
  · exact follows_drop _ _
  · exact Follows.refl _

theorem follows_name? {stream left : Stream} {token : Token}
    (found : stream.name? = some (token, left)) : left.Follows stream := by
  unfold name? at found
  split at found
  · cases found
    exact follows_drop _ _
  · cases found

theorem remaining_advance_le (stream : Stream) : stream.advance.remaining ≤ stream.remaining := by
  unfold advance
  split
  · exact Nat.le_refl _
  · exact Nat.sub_le_sub_left (Nat.le_succ _) _

theorem Follows.remaining_le {left stream : Stream} (follows : left.Follows stream) :
    left.remaining ≤ stream.remaining := by
  obtain ⟨count, rfl⟩ := follows
  induction count generalizing stream with
  | zero => exact Nat.le_refl _
  | succ count ih => exact Nat.le_trans ih stream.remaining_advance_le

theorem remaining_drop_one_lt {stream : Stream} (inside : stream.peek.kind ≠ .eof) :
    (stream.drop 1).remaining < stream.remaining := by
  have := stream.cursor_lt inside
  rw [drop_one_eq inside]
  simp only [remaining]
  omega

theorem remaining_restOfLine_lt {stream : Stream} (inside : endsLine stream.peek.kind = false) :
    stream.restOfLine.2.remaining < stream.remaining := by
  have solid : stream.peek.kind ≠ .eof := by
    intro eof
    rw [eof] at inside
    cases inside
  rw [restOfLine, skip_of_goesOn (by simp [inLine, inside])]
  exact Nat.lt_of_le_of_lt (follows_skip _ _).remaining_le (remaining_drop_one_lt solid)

theorem kinds_peek_skip (stream : Stream) (kinds : Kinds) :
    kinds (stream.skip kinds).peek.kind = false := by
  induction stream using skip_induct kinds with
  | goesOn stream next ih => exact skip_of_goesOn next ▸ ih
  | stops stream ends =>
    rw [skip_of_stops ends]
    exact Bool.eq_false_iff.2 ends

end Stream

end Lifeline
