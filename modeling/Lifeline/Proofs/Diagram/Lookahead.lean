import Lifeline.Proofs.Diagram.Reading

/-! How far readings look ahead.

A statement other than a note looks no further than the end of its line, and no reading looks behind
an end mark. So streams that show the same up to there are read the same, whatever else they hold. -/

set_option autoImplicit false

namespace Lifeline

/-- Kinds of tokens that a statement without an end of its own stops at. -/
def Token.Kind.isLast (kind : Kind) : Bool := kind == .newline || kind == .eof

theorem Token.Kinds.eq_false_of_isLast {kinds : Kinds} (newline : kinds .newline = false)
    {mark : Kind} (last : mark.isLast = true) : kinds mark = false := by
  rcases Bool.or_eq_true_iff.1 last with same | same <;> rw [eq_of_beq same]
  · exact newline
  · exact kinds.eof

namespace Stream

open Token (Kind Kinds)

def shown (stream : Stream) : List Token := stream.ahead ++ [stream.eof]

/-- Whether two streams have come to the same offset and show the same tokens, up to one of a kind
behind which they show `tail` and `tail'`. -/
structure Agree (mark : Kind) (tail tail' : List Token) (first second : Stream) : Prop where
  last : mark.isLast = true
  reached : first.reached = second.reached
  shown : ∃ same token, token.kind = mark ∧ first.shown = same ++ token :: tail ∧
    second.shown = same ++ token :: tail'

variable {stream first second : Stream} {token : Token} {rest tail tail' : List Token} {mark : Kind}
  {kinds : Kinds}

theorem shown_of_inside (inside : stream.peek.kind ≠ .eof) :
    stream.shown = stream.peek :: (stream.drop 1).shown := by
  obtain ⟨rest, ahead⟩ := exists_ahead inside
  rw [shown, shown, ahead_drop_one ahead, eof_drop, ← List.cons_append, ← ahead]

theorem peek_of_shown (shown : stream.shown = token :: rest) : stream.peek = token := by
  rw [peek_eq]
  unfold Stream.shown at shown
  cases ahead : stream.ahead with
  | nil =>
    rw [ahead] at shown
    cases shown
    rfl
  | cons next later =>
    rw [ahead] at shown
    cases shown
    rfl

theorem agree_eof (reached : first.reached = second.reached) (ahead : first.ahead = second.ahead)
    (eof : first.eof = second.eof) : first.Agree .eof [] [] second :=
  ⟨rfl, reached, first.ahead, first.eof, first.kind_eof, rfl, by rw [shown, ahead, eof]⟩

namespace Agree

theorem peek (agree : first.Agree mark tail tail' second) : first.peek = second.peek := by
  obtain ⟨same, token, -, shown, shown'⟩ := agree.shown
  cases same with
  | nil => rw [peek_of_shown shown, peek_of_shown shown']
  | cons next same => rw [peek_of_shown shown, peek_of_shown shown']

theorem atKind (agree : first.Agree mark tail tail' second) (kind : Kind) :
    first.atKind kind = second.atKind kind := by
  rw [Stream.atKind, Stream.atKind, agree.peek]

theorem atWord (agree : first.Agree mark tail tail' second) (word : String) :
    first.atWord word = second.atWord word := by
  rw [Stream.atWord, Stream.atWord, agree.peek]

theorem drop_one (agree : first.Agree mark tail tail' second) (inside : first.peek.kind ≠ mark) :
    (first.drop 1).Agree mark tail tail' (second.drop 1) := by
  obtain ⟨same, token, kind, shown, shown'⟩ := agree.shown
  cases same with
  | nil => exact absurd (peek_of_shown shown ▸ kind) inside
  | cons next same =>
    -- An end mark has nothing behind it, but the first token has the mark.
    have goesOn {stream : Stream} {tail : List Token}
        (shown : stream.shown = next :: same ++ token :: tail) : stream.peek.kind ≠ .eof := by
      intro eof
      have nothing := atEnd_iff.1 (beq_iff_eq.2 eof)
      have one := congrArg List.length shown
      rw [Stream.shown, nothing] at one
      simp at one
    have behind {stream : Stream} {tail : List Token}
        (shown : stream.shown = next :: same ++ token :: tail) :
        (stream.drop 1).shown = same ++ token :: tail := by
      have first := shown_of_inside (goesOn shown)
      rw [shown] at first
      exact (List.cons.inj first).2.symm
    have reached {stream : Stream} {tail : List Token}
        (shown : stream.shown = next :: same ++ token :: tail) :
        (stream.drop 1).reached = next.stop := by
      rw [drop, drop, reached_advance (goesOn shown), peek_of_shown shown]
    exact ⟨agree.last, (reached shown).trans (reached shown').symm, same, token, kind, behind shown,
      behind shown'⟩

theorem of_atKind (agree : first.Agree mark tail tail' second) {kind : Kind}
    (other : kind.isLast = false) (next : first.atKind kind = true) :
    (first.drop 1).Agree mark tail tail' (second.drop 1) :=
  agree.drop_one fun same => by
    have last := agree.last
    rw [← same, eq_of_beq next, other] at last
    cases last

theorem of_atWord (agree : first.Agree mark tail tail' second) {word : String}
    (next : first.atWord word = true) : (first.drop 1).Agree mark tail tail' (second.drop 1) :=
  agree.of_atKind rfl (Bool.and_eq_true_iff.1 next).1

theorem peekAt_one (agree : first.Agree mark tail tail' second) {kind : Kind}
    (other : kind.isLast = false) (next : first.atKind kind = true) :
    first.peekAt 1 = second.peekAt 1 := by
  have inside : first.peek.kind ≠ .eof := by
    rw [eq_of_beq next]
    rintro rfl
    cases other
  rw [peekAt_one_eq inside, peekAt_one_eq (agree.peek ▸ inside), (agree.of_atKind other next).peek]

theorem atEnd (agree : first.Agree mark tail tail' second) : first.atEnd = second.atEnd := by
  rw [Stream.atEnd, Stream.atEnd, agree.peek]

theorem of_isName (agree : first.Agree mark tail tail' second)
    (name : first.peek.kind.isName = true) :
    (first.drop 1).Agree mark tail tail' (second.drop 1) := by
  refine agree.drop_one fun same => ?_
  have last := agree.last
  rw [← same] at last
  cases kind : first.peek.kind <;> rw [kind] at name last <;> contradiction

theorem run_and_skip (agree : first.Agree mark tail tail' second) (stops : kinds mark = false) :
    first.run kinds = second.run kinds ∧
      (first.skip kinds).Agree mark tail tail' (second.skip kinds) := by
  induction first using skip_induct kinds generalizing second with
  | goesOn first next ih =>
    have inside : first.peek.kind ≠ mark := by
      rintro rfl
      rw [next] at stops
      cases stops
    obtain ⟨run, left⟩ := ih (agree.drop_one inside)
    have next' : kinds second.peek.kind = true := agree.peek ▸ next
    rw [run_of_goesOn next, run_of_goesOn next', skip_of_goesOn next, skip_of_goesOn next',
      agree.peek, run]
    exact ⟨rfl, left⟩
  | stops first ends =>
    have ends' : ¬kinds second.peek.kind = true := agree.peek ▸ ends
    rw [run_of_stops ends, run_of_stops ends', Stream.skip_of_stops ends,
      Stream.skip_of_stops ends']
    exact ⟨rfl, agree⟩

theorem skip (agree : first.Agree mark tail tail' second) (newline : kinds .newline = false) :
    (first.skip kinds).Agree mark tail tail' (second.skip kinds) :=
  (agree.run_and_skip (Token.Kinds.eq_false_of_isLast newline agree.last)).2

theorem run (agree : first.Agree mark tail tail' second) (newline : kinds .newline = false) :
    first.run kinds = second.run kinds :=
  (agree.run_and_skip (Token.Kinds.eq_false_of_isLast newline agree.last)).1

theorem skipSeparators (agree : first.Agree .eof [] [] second) :
    first.skipSeparators.Agree .eof [] [] second.skipSeparators :=
  (agree.run_and_skip separators.eof).2

theorem restOfLine (agree : first.Agree mark tail tail' second) :
    first.restOfLine.1 = second.restOfLine.1 ∧
      first.restOfLine.2.Agree mark tail tail' second.restOfLine.2 :=
  ⟨congrArg join (agree.run rfl), agree.skip rfl⟩

theorem label (agree : first.Agree mark tail tail' second) :
    first.label.1 = second.label.1 ∧ first.label.2.Agree mark tail tail' second.label.2 :=
  ⟨congrArg join (agree.run rfl), agree.skip rfl⟩

theorem name?_cases (agree : first.Agree mark tail tail' second) :
    first.name? = none ∧ second.name? = none ∨ ∃ token left left',
      first.name? = some (token, left) ∧ second.name? = some (token, left') ∧
        left.Agree mark tail tail' left' := by
  rw [name?, name?, ← agree.peek]
  split
  · rename_i name
    exact .inr ⟨_, _, _, rfl, rfl, agree.of_isName name⟩
  · exact .inl ⟨rfl, rfl⟩

end Agree

end Stream

/-! ## Statements -/

namespace Leaf

open Lifeline.Stream (drop_drop peekAt_one_eq)

structure Agree (mark : Token.Kind) (tail tail' : List Token) (first second : Leaf) : Prop where
  statement : first.statement = second.statement
  issue : first.issue = second.issue
  left : first.left.Agree mark tail tail' second.left

section Line

variable {first second : Stream} {mark : Token.Kind} {tail tail' : List Token}

theorem spanFrom_eq (keyword : Token) (agree : first.Agree mark tail tail' second) :
    spanFrom keyword first = spanFrom keyword second := by
  rw [spanFrom, spanFrom, agree.reached]

theorem agree_fail (message : String) (agree : first.Agree mark tail tail' second) :
    (fail message first).Agree mark tail tail' (fail message second) :=
  ⟨rfl, by rw [fail, fail, agree.peek], agree.skip rfl⟩

theorem agree_nickname (agree : first.Agree mark tail tail' second) :
    (nickname first).1 = (nickname second).1 ∧ (nickname first).2.1 = (nickname second).2.1 ∧
      (nickname first).2.2.Agree mark tail tail' (nickname second).2.2 := by
  unfold nickname
  rw [← agree.atWord]
  split
  · rename_i next
    have later := agree.of_atWord next
    dsimp only
    obtain ⟨none, none'⟩ | ⟨token, left, left', found, found', left_agree⟩ := later.name?_cases
    · rw [none, none', later.peek]
      exact ⟨rfl, rfl, later⟩
    · rw [found, found']
      exact ⟨rfl, rfl, left_agree⟩
  · exact ⟨rfl, rfl, agree⟩

theorem agree_participant (role : Role) (keyword : Token)
    (agree : first.Agree mark tail tail' second) :
    (participant role keyword first).Agree mark tail tail' (participant role keyword second) := by
  unfold participant
  obtain ⟨none, none'⟩ | ⟨token, left, left', found, found', left_agree⟩ := agree.name?_cases
  · rw [none, none']
    exact agree_fail _ agree
  · rw [found, found']
    obtain ⟨short, issue, rest⟩ := agree_nickname left_agree
    refine ⟨?_, issue, rest.skip rfl⟩
    dsimp only
    rw [short, spanFrom_eq keyword rest]

theorem agree_message (sender : Token) (agree : first.Agree mark tail tail' second) :
    (message sender first).Agree mark tail tail' (message sender second) := by
  unfold message
  rw [← agree.atKind]
  split
  · split
    · rename_i next
      have later := agree.of_atKind rfl next
      dsimp only
      obtain ⟨none, none'⟩ | ⟨token, left, left', found, found', left_agree⟩ := later.name?_cases
      · rw [none, none']
        exact agree_fail _ later
      · rw [found, found', ← agree.peek]
        dsimp only
        rw [← left_agree.atKind]
        split
        · rename_i colon
          obtain ⟨text, rest⟩ := (left_agree.of_atKind rfl colon).restOfLine
          refine ⟨?_, rfl, rest⟩
          dsimp only
          rw [text, spanFrom_eq sender rest]
        · refine ⟨?_, rfl, left_agree⟩
          dsimp only
          rw [spanFrom_eq sender left_agree]
    · exact agree_fail _ agree
  · exact ⟨rfl, rfl, agree.skip rfl⟩

theorem agree_title (keyword : Token) (agree : first.Agree mark tail tail' second) :
    (title keyword first).Agree mark tail tail' (title keyword second) := by
  obtain ⟨text, rest⟩ := agree.restOfLine
  refine ⟨?_, rfl, rest⟩
  dsimp only [title]
  rw [text, spanFrom_eq keyword rest]

theorem agree_autonumber (keyword : Token) (agree : first.Agree mark tail tail' second) :
    (autonumber keyword first).Agree mark tail tail' (autonumber keyword second) := by
  unfold autonumber
  dsimp only
  rw [← agree.atKind, ← agree.peek]
  split
  · rename_i next
    have passed (passes : Bool) : (if passes then first.drop 1 else first).Agree mark tail tail'
        (if passes then second.drop 1 else second) := by
      cases passes
      · exact agree
      · exact agree.of_atKind rfl next
    exact ⟨by rw [spanFrom_eq keyword (passed _)], rfl, (passed _).skip rfl⟩
  · refine ⟨?_, rfl, agree.skip rfl⟩
    rw [Option.isSome_none, if_neg Bool.false_ne_true, if_neg Bool.false_ne_true,
      spanFrom_eq keyword agree]

theorem agree_onName (missing : String) (statement : String → Span → Statement) (keyword : Token)
    (agree : first.Agree mark tail tail' second) :
    (onName missing statement keyword first).Agree mark tail tail'
      (onName missing statement keyword second) := by
  unfold onName
  obtain ⟨none, none'⟩ | ⟨token, left, left', found, found', left_agree⟩ := agree.name?_cases
  · rw [none, none']
    exact agree_fail _ agree
  · rw [found, found']
    refine ⟨?_, rfl, left_agree⟩
    dsimp only
    rw [spanFrom_eq keyword left_agree]

theorem agree_furtherNames (agree : first.Agree mark tail tail' second) :
    (furtherNames first).1 = (furtherNames second).1 ∧
      (furtherNames first).2.Agree mark tail tail' (furtherNames second).2 := by
  induction first using furtherNames.induct generalizing second with
  | case1 first listed names left result ih =>
    obtain ⟨comma, name⟩ := Bool.and_eq_true_iff.1 listed
    have inside : first.peek.kind ≠ .eof := by
      rw [eq_of_beq comma]
      decide
    have same := agree.peekAt_one rfl comma
    rw [peekAt_one_eq inside] at name
    have behind := (agree.of_atKind rfl comma).of_isName name
    rw [drop_drop, drop_drop] at behind
    obtain ⟨names, left⟩ := ih behind
    rw [furtherNames, if_pos listed, furtherNames.eq_def second, ← agree.atKind, ← same,
      if_pos listed]
    exact ⟨congrArg (first.peekAt 1 :: ·) names, left⟩
  | case2 first stops =>
    have stops' : ¬(second.atKind .comma && (second.peekAt 1).kind.isName) = true := by
      rw [← agree.atKind]
      intro listed
      obtain ⟨comma, name⟩ := Bool.and_eq_true_iff.1 listed
      exact stops (by rw [comma, agree.peekAt_one rfl comma, name]; rfl)
    rw [furtherNames, if_neg stops, furtherNames.eq_def second, if_neg stops']
    exact ⟨rfl, agree⟩

theorem agree_targets (agree : first.Agree mark tail tail' second) :
    (targets first).1 = (targets second).1 ∧
      (targets first).2.Agree mark tail tail' (targets second).2 := by
  unfold targets
  obtain ⟨none, none'⟩ | ⟨token, left, left', found, found', left_agree⟩ := agree.name?_cases
  · rw [none, none']
    exact ⟨rfl, agree⟩
  · rw [found, found']
    obtain ⟨names, rest⟩ := agree_furtherNames left_agree
    dsimp only
    rw [names]
    exact ⟨rfl, rest⟩

theorem agree_placement (agree : first.Agree mark tail tail' second) :
    (placement first).1 = (placement second).1 ∧
      (placement first).2.Agree mark tail tail' (placement second).2 := by
  unfold placement
  rw [← agree.atWord, ← agree.atWord, ← agree.atWord]
  split
  · rename_i side
    have later : (first.drop 1).Agree mark tail tail' (second.drop 1) := by
      rcases Bool.or_eq_true_iff.1 side with left | right
      · exact agree.of_atWord left
      · exact agree.of_atWord right
    have behind : (if (first.drop 1).atWord "of" then (first.drop 1).drop 1
        else first.drop 1).Agree mark tail tail' (if (second.drop 1).atWord "of"
          then (second.drop 1).drop 1 else second.drop 1) := by
      rw [← later.atWord]
      split
      · rename_i next
        exact later.of_atWord next
      · exact later
    obtain ⟨target, rest⟩ := agree_targets behind
    dsimp only
    exact ⟨congrArg (fun target => some (_, target)) target, rest⟩
  · split
    · rename_i above
      obtain ⟨target, rest⟩ := agree_targets (agree.of_atWord above)
      generalize targets (first.drop 1) = one at *
      generalize targets (second.drop 1) = other at *
      obtain ⟨_ | target, left⟩ := one <;> obtain ⟨_ | target', left'⟩ := other <;>
        cases target <;> exact ⟨rfl, rest⟩
    · exact ⟨rfl, agree⟩

end Line

/-! ## Notes

The lines of a note go on behind the end of each, so that only an end mark is sure to stop them. -/

section Note

variable {first second : Stream}

theorem atEndNote_eq_of_agree (agree : first.Agree .eof [] [] second) :
    atEndNote first = atEndNote second := by
  unfold atEndNote
  rw [← agree.atKind]
  by_cases next : first.atKind .endMark = true
  · rw [agree.peekAt_one rfl next]
  · rw [Bool.eq_false_iff.2 next, Bool.false_and, Bool.false_and]

theorem agree_noteBody (agree : first.Agree .eof [] [] second) :
    (noteBody first).1 = (noteBody second).1 ∧
      (noteBody first).2.Agree .eof [] [] (noteBody second).2 := by
  fun_induction noteBody first generalizing second with
  | case1 first line =>
    rename_i ends
    have passed : line.Agree .eof [] [] second.skipSeparators := agree.skipSeparators
    rw [passed.atEnd, passed.atKind] at ends
    rw [noteBody_of_ends ends]
    exact ⟨rfl, passed⟩
  | case2 first line inside =>
    rename_i closes
    have passed : line.Agree .eof [] [] second.skipSeparators := agree.skipSeparators
    obtain ⟨mark, note⟩ := Bool.and_eq_true_iff.1 closes
    have solid : line.peek.kind ≠ .eof := by
      rw [eq_of_beq mark]
      decide
    rw [peekAt_one_eq solid] at note
    have behind := (passed.of_atKind rfl mark).of_atKind rfl note
    rw [drop_drop, drop_drop] at behind
    rw [passed.atEnd, passed.atKind] at inside
    rw [noteBody_of_atEndNote inside (atEndNote_eq_of_agree passed ▸ closes)]
    exact ⟨rfl, behind⟩
  | case3 first line inside opens lines left result =>
    rename_i ih
    have passed : line.Agree .eof [] [] second.skipSeparators := agree.skipSeparators
    obtain ⟨text, rest⟩ := passed.restOfLine
    obtain ⟨same, left⟩ := ih rest
    rw [passed.atEnd, passed.atKind] at inside
    rw [atEndNote_eq_of_agree passed] at opens
    rw [result] at same left
    rw [noteBody_of_line inside opens, text]
    exact ⟨congrArg (Option.map (second.skipSeparators.restOfLine.1 :: ·)) same, left⟩

theorem agree_note (keyword : Token) (agree : first.Agree .eof [] [] second) :
    (note keyword first).Agree .eof [] [] (note keyword second) := by
  obtain ⟨placed, rest⟩ := agree_placement agree
  unfold note
  generalize placement first = one at *
  generalize placement second = other at *
  obtain ⟨_ | ⟨side, target⟩, first⟩ := one <;> obtain ⟨_ | ⟨side', target'⟩, second⟩ := other <;>
    cases placed
  · exact agree_fail _ rest
  · dsimp only at rest ⊢
    rw [← rest.atKind, ← rest.peek]
    split
    · rename_i colon
      obtain ⟨text, left⟩ := (rest.of_atKind rfl colon).restOfLine
      refine ⟨?_, rfl, left⟩
      dsimp only
      rw [text, spanFrom_eq keyword left]
    · split
      · obtain ⟨lines, left⟩ := agree_noteBody rest
        generalize noteBody first = one at *
        generalize noteBody second = other at *
        obtain ⟨_ | lines, first⟩ := one <;> obtain ⟨_ | lines', second⟩ := other <;> cases lines
        · exact agree_fail _ left
        · refine ⟨?_, rfl, left⟩
          dsimp only
          rw [spanFrom_eq keyword left]
      · exact agree_fail _ rest

end Note

end Leaf

/-! ## The machine -/

namespace Parsing

open Token (Kind)

/-- Kinds of tokens whose statements end with the line and leave the open blocks alone. -/
def staysInLine (kind : Kind) : Bool := !kind.isBlockBoundary && kind != .endUml && kind != .note

section Leaf

variable {first second : Stream} {mark : Kind} {tail tail' : List Token} {token : Token}

theorem agree_leaf_of_note (agree : first.Agree mark tail tail' second)
    (notes : token.kind = .note → (Leaf.note token first).Agree mark tail tail'
      (Leaf.note token second)) :
    (leaf token first).Agree mark tail tail' (leaf token second) := by
  unfold leaf
  split
  · exact Leaf.agree_participant _ _ agree
  · exact Leaf.agree_title _ agree
  · rename_i kind
    exact notes kind
  · exact Leaf.agree_onName _ .activation _ agree
  · exact Leaf.agree_onName _ .deactivation _ agree
  · exact Leaf.agree_autonumber _ agree
  · exact ⟨rfl, rfl, agree.skip rfl⟩
  · exact Leaf.agree_message _ agree

/-- What is behind the line of a statement does not change it, unless it is a note. -/
theorem agree_leaf_of_staysInLine (stays : staysInLine token.kind = true)
    (agree : first.Agree mark tail tail' second) :
    (leaf token first).Agree mark tail tail' (leaf token second) := by
  refine agree_leaf_of_note agree fun note => ?_
  rw [note] at stays
  cases stays

theorem agree_leaf (token : Token) (agree : first.Agree .eof [] [] second) :
    (leaf token first).Agree .eof [] [] (leaf token second) :=
  agree_leaf_of_note agree fun _ => Leaf.agree_note token agree

end Leaf

structure Agree (first second : Parsing) : Prop where
  stream : first.stream.Agree .eof [] [] second.stream
  diagram : first.diagram = second.diagram
  frames : first.frames = second.frames
  statements : first.statements = second.statements
  diagrams : first.diagrams = second.diagrams
  issues : first.issues = second.issues

variable {first second : Parsing}

theorem agree_accept (agree : first.Agree second) {leaf leaf' : Leaf}
    (read : leaf.Agree .eof [] [] leaf') : (first.accept leaf).Agree (second.accept leaf') :=
  { agree with
    stream := read.left
    statements := by rw [accept, accept, read.statement, agree.statements]
    issues := by rw [accept, accept, read.issue, agree.issues] }

theorem agree_push (agree : first.Agree second) (block : Block) (opener : Token) :
    (first.push block opener).Agree (second.push block opener) := by
  obtain ⟨label, left⟩ := agree.stream.label
  exact
    { agree with
      stream := left
      frames := by simp only [push, label, agree.statements, agree.frames]
      statements := rfl
      issues := by simp only [push, agree.issues] }

theorem agree_split (agree : first.Agree second) (frame : Frame) (frames : List Frame)
    (mark : Token) (reached : Nat) :
    (first.split frame frames mark reached).Agree (second.split frame frames mark reached) := by
  obtain ⟨label, left⟩ := agree.stream.label
  exact
    { agree with
      stream := left
      frames := by simp only [split, label, agree.statements]
      statements := rfl }

theorem agree_pop (agree : first.Agree second) (frame : Frame) (frames : List Frame)
    (reached : Nat) :
    (first.pop frame frames reached).Agree (second.pop frame frames reached) :=
  { agree with
    frames := rfl
    statements := by simp only [pop, agree.statements, agree.stream.reached] }

theorem agree_finish (agree : first.Agree second) (opened current : Token) (reached : Nat) :
    (first.finish opened current reached).Agree (second.finish opened current reached) := by
  have abandoned : abandon current reached first.frames first.statements first.issues =
      abandon current reached second.frames second.statements second.issues := by
    rw [agree.frames, agree.statements, agree.issues]
  exact
    { agree with
      diagram := rfl
      frames := rfl
      statements := rfl
      diagrams := by simp only [finish, abandoned, agree.diagrams, agree.stream.reached]
      issues := by simp only [finish, abandoned] }

theorem agree_inside (agree : first.Agree second) (opened token : Token) (reached : Nat) :
    (first.inside opened token reached).Agree (second.inside opened token reached) := by
  have accepted := agree_accept agree (agree_leaf token agree.stream)
  unfold inside
  rw [← agree.frames]
  split
  · exact agree_finish agree _ _ _
  · exact agree_push agree _ _
  · exact agree_pop agree _ _ _
  · split
    · exact agree_split agree _ _ _ _
    · exact accepted
  · exact accepted

theorem agree_outside (agree : first.Agree second) (token : Token) :
    (first.outside token).Agree (second.outside token) := by
  unfold outside
  split
  · exact { agree with diagram := rfl }
  · exact { agree with issues := by rw [report, report, agree.issues] }

theorem agree_step (token : Token) (agree : first.Agree second)
    (inside : first.stream.peek.kind ≠ .eof) :
    (first.step token).Agree (second.step token) := by
  have behind : first.advance.Agree second.advance :=
    { agree with stream := agree.stream.drop_one inside }
  cases diagram : first.diagram with
  | none =>
    rw [step_outside diagram, step_outside (agree.diagram ▸ diagram)]
    exact agree_outside behind token
  | some opened =>
    rw [step_inside diagram, step_inside (agree.diagram ▸ diagram), ← agree.stream.reached]
    exact agree_inside behind opened token _

theorem agree_skipSeparators (agree : first.Agree second) :
    first.skipSeparators.Agree second.skipSeparators :=
  { agree with stream := agree.stream.skipSeparators }

theorem agree_run (agree : first.Agree second) : first.run.Agree second.run := by
  have passed := agree_skipSeparators agree
  fun_induction run first generalizing second with
  | case1 first next =>
    rename_i atEnd
    rw [run.eq_def second, if_pos (passed.stream.atEnd ▸ atEnd)]
    exact passed
  | case2 first next inside =>
    rename_i ih
    have stepped := agree_step next.stream.peek passed fun eof =>
      inside (beq_iff_eq.2 eof)
    rw [run.eq_def second, if_neg (passed.stream.atEnd ▸ inside), ← passed.stream.peek]
    exact ih stepped (agree_skipSeparators stepped)

theorem agree_complete (agree : first.Agree second) : first.complete.Agree second.complete := by
  unfold complete
  rw [← agree.diagram, ← agree.stream.peek, ← agree.stream.reached]
  split
  · exact agree
  · exact agree_finish agree _ _ _

end Parsing

theorem parse_eq_of_agree {tokens tokens' : List Token}
    (agree : (Stream.ofTokens tokens).Agree .eof [] [] (Stream.ofTokens tokens')) :
    parse tokens = parse tokens' := by
  have starts : (Parsing.start (.ofTokens tokens)).Agree (.start (.ofTokens tokens')) :=
    ⟨agree, rfl, rfl, rfl, rfl, rfl⟩
  have ends := Parsing.agree_complete (Parsing.agree_run starts)
  unfold parse
  simp only [ends.diagrams, ends.issues, agree.peek, ends.stream.peek]

end Lifeline
