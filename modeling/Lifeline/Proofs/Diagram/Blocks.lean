import Lifeline.Proofs.Diagram.Reading

/-! Blocks, on text.

A block's keyword opens a frame, `else` starts the frame's next branch, and `end` makes the frame a
statement. In between, the texts of the branches read as statements of their own. -/

set_option autoImplicit false

namespace Lifeline.Parsing

open Token (Lexed Kind IsWord wordKind)

def labelText (label : List Char) : List Char := if label.isEmpty then [] else ' ' :: label

theorem lexed_labelText {label tail : List Char} {tokens : List Token}
    (lexed : Lexed false (labelText label ++ '\n' :: tail) tokens) :
    Lexed false (label ++ '\n' :: tail) tokens := by
  cases label with
  | nil => exact lexed
  | cons c label => exact lexed.gap

theorem lexed_keyword {keyword label tail : List Char} (isWord : IsWord keyword)
    {tokens : List Token}
    (lexed : Lexed true (keyword ++ (labelText label ++ '\n' :: tail)) tokens) :
    ∃ token more, tokens = token :: more ∧ token.kind = wordKind keyword ∧
      Lexed false (label ++ '\n' :: tail) more := by
  have ends : Token.EndsWord (labelText label ++ '\n' :: tail) := by
    cases label with
    | nil => exact Token.endsWord_lineFeed _
    | cons c label => exact Token.endsWord_space _
  obtain ⟨token, more, same, kind, -, later⟩ := lexed.word keyword isWord ends
  exact ⟨token, more, same, kind, lexed_labelText later⟩

def opened (block : Block) (opener : Token) (label : List Char) (before : List Statement) : Frame :=
  ⟨block, opener, [], opener, String.ofList label, before⟩

theorem label_within (parsing : Parsing) {label : String} {left : Stream}
    (read : (parsing.stream.drop 1).label = (label, left)) : left.Within parsing.stream := by
  have within := (Stream.within_skip (parsing.stream.drop 1) Stream.labelled).trans
    (Stream.within_drop _ 1)
  rwa [show left = _ from (congrArg Prod.snd read).symm]

theorem run_push (parsing : Parsing) (inside : parsing.diagram.isSome = true) {block : Block}
    (kept : block.isUnsupported = false) {keyword label tail : List Char} (isWord : IsWord keyword)
    (kind : wordKind keyword = .opener block) (labels : Labels label)
    (lexed : Lexed true (keyword ++ (labelText label ++ '\n' :: tail)) parsing.stream.ahead) :
    ∃ stream opener, (Lexed true tail stream.ahead ∧ stream.Within parsing.stream) ∧
      parsing.run =
        ({ parsing with
            stream := stream
            frames := opened block opener label parsing.statements :: parsing.frames
            statements := [] } : Parsing).run := by
  obtain ⟨start, diagram⟩ := Option.isSome_iff_exists.1 inside
  obtain ⟨opener, more, ahead, opens, later⟩ := lexed_keyword isWord lexed
  rw [kind] at opens
  rw [← Stream.ahead_drop_one ahead] at later
  obtain ⟨left, label_eq, last⟩ := Stream.label_lexed labels later
  have first : parsing.run =
      ({ parsing with
          stream := left
          frames := opened block opener label parsing.statements :: parsing.frames
          statements := [] } : Parsing).run := by
    rw [run_cons ahead (by rw [opens]; rfl), step_inside diagram, Parsing.inside, opens]
    dsimp only
    rw [push]
    dsimp only [advance]
    rw [label_eq, kept, if_neg Bool.false_ne_true]
    rfl
  have before := label_within parsing label_eq
  obtain ⟨stream, ⟨last', within⟩, second⟩ := run_lineFeed { parsing with
      stream := left
      frames := opened block opener label parsing.statements :: parsing.frames
      statements := [] } last
  exact ⟨stream, opener, ⟨last', within.trans before⟩, first.trans second⟩

/-- The innermost frame after its branch has ended and the next one has begun. -/
def next (frame : Frame) (inner : List Statement) (reached : Nat) (mark : Token)
    (label : List Char) : Frame :=
  { frame with
    branches := frame.branch inner reached :: frame.branches
    mark := mark
    label := String.ofList label }

theorem run_split (parsing : Parsing) (inside : parsing.diagram.isSome = true) {frame : Frame}
    {frames : List Frame} (innermost : parsing.frames = frame :: frames)
    (splits : frame.block.splitsAt .elseMark = true) {label tail : List Char}
    (labels : Labels label)
    (lexed : Lexed true ("else".toList ++ (labelText label ++ '\n' :: tail)) parsing.stream.ahead) :
    ∃ stream reached mark, (Lexed true tail stream.ahead ∧ stream.Within parsing.stream) ∧
      parsing.run =
        ({ parsing with
            stream := stream
            frames := next frame parsing.statements reached mark label :: frames
            statements := [] } : Parsing).run := by
  obtain ⟨start, diagram⟩ := Option.isSome_iff_exists.1 inside
  obtain ⟨mark, more, ahead, isElse, later⟩ := lexed_keyword (by decide) lexed
  have isElse : mark.kind = .elseMark := isElse
  rw [← Stream.ahead_drop_one ahead] at later
  obtain ⟨left, label_eq, last⟩ := Stream.label_lexed labels later
  have first : parsing.run =
      ({ parsing with
          stream := left
          frames := next frame parsing.statements parsing.stream.reached mark label :: frames
          statements := [] } : Parsing).run := by
    rw [run_cons ahead (by rw [isElse]; rfl), step_inside diagram, Parsing.inside, isElse]
    dsimp only [advance]
    rw [innermost]
    dsimp only
    rw [splits, if_pos rfl, Parsing.split]
    dsimp only
    rw [label_eq]
    rfl
  have before := label_within parsing label_eq
  obtain ⟨stream, ⟨last', within⟩, second⟩ := run_lineFeed { parsing with
      stream := left
      frames := next frame parsing.statements parsing.stream.reached mark label :: frames
      statements := [] } last
  exact ⟨stream, _, mark, ⟨last', within.trans before⟩, first.trans second⟩

theorem run_pop (parsing : Parsing) (inside : parsing.diagram.isSome = true) {frame : Frame}
    {frames : List Frame} (innermost : parsing.frames = frame :: frames) {tail : List Char}
    (lexed : Lexed true ("end".toList ++ '\n' :: tail) parsing.stream.ahead) :
    ∃ stream branchReached reached,
      (Lexed true tail stream.ahead ∧ stream.Within parsing.stream) ∧
      parsing.run =
        ({ parsing with
            stream := stream
            frames := frames
            statements := frame.close parsing.statements branchReached reached :: frame.before } :
          Parsing).run := by
  obtain ⟨start, diagram⟩ := Option.isSome_iff_exists.1 inside
  obtain ⟨token, more, ahead, isEnd, -, later⟩ :=
    lexed.word _ (by decide) (Token.endsWord_lineFeed _)
  have isEnd : token.kind = .endMark := isEnd
  rw [← Stream.ahead_drop_one ahead] at later
  have first : parsing.run =
      ({ parsing with
          stream := parsing.stream.drop 1
          frames := frames
          statements := frame.close parsing.statements parsing.stream.reached
            (parsing.stream.drop 1).reached :: frame.before } : Parsing).run := by
    rw [run_cons ahead (by rw [isEnd]; rfl), step_inside diagram, Parsing.inside, isEnd]
    dsimp only [advance]
    rw [innermost]
    rfl
  obtain ⟨stream, ⟨last, within⟩, second⟩ := run_lineFeed { parsing with
      stream := parsing.stream.drop 1
      frames := frames
      statements := frame.close parsing.statements parsing.stream.reached
        (parsing.stream.drop 1).reached :: frame.before } later
  exact ⟨stream, _, _, ⟨last, within.trans (Stream.within_drop _ 1)⟩, first.trans second⟩

/-! ## Branches -/

/-- What it takes for a text to be read as further branches of an open block. -/
def ReadsBranches (text : List Char) (means : List Branch → Prop) : Prop :=
  ∀ (parsing : Parsing) (frame : Frame) (frames : List Frame) (tail : List Char),
    parsing.diagram.isSome = true → parsing.frames = frame :: frames →
    frame.block.splitsAt .elseMark = true → Lexed true (text ++ tail) parsing.stream.ahead →
    ∃ stream last inner, (Lexed true tail stream.ahead ∧ stream.Within parsing.stream) ∧
      (last.block = frame.block ∧ last.before = frame.before) ∧
      (∀ reached, ∃ before later, means later ∧
        last.allBranches inner reached = frame.allBranches parsing.statements before ++ later) ∧
      parsing.run =
        ({ parsing with
            stream := stream
            frames := last :: frames
            statements := inner } : Parsing).run

theorem ReadsBranches.nil {means : List Branch → Prop} (none : means []) :
    ReadsBranches [] means := by
  intro parsing frame frames tail _ innermost _ lexed
  refine ⟨parsing.stream, frame, parsing.statements, ⟨lexed, Stream.Within.refl _⟩, ⟨rfl, rfl⟩, ?_,
    by rw [← innermost]⟩
  intro reached
  exact ⟨reached, [], none, (List.append_nil _).symm⟩

theorem ReadsBranches.mono {text : List Char} {means other : List Branch → Prop}
    (reads : ReadsBranches text means) (implies : ∀ branches, means branches → other branches) :
    ReadsBranches text other := by
  intro parsing frame frames tail inside innermost splits lexed
  obtain ⟨stream, last, inner, later, same, branches, run⟩ :=
    reads parsing frame frames tail inside innermost splits lexed
  refine ⟨stream, last, inner, later, same, fun reached => ?_, run⟩
  obtain ⟨before, more, meant, all⟩ := branches reached
  exact ⟨before, more, implies more meant, all⟩

theorem ReadsBranches.cons (indent : Nat) {label body rest : List Char} (labels : Labels label)
    {means : List Statement → Prop} (first : Reads body means)
    {meansLater : List Branch → Prop} (later : ReadsBranches rest meansLater) :
    ReadsBranches
      (List.replicate indent ' ' ++ ("else".toList ++ (labelText label ++ '\n' :: (body ++ rest))))
      fun branches => ∃ branch more, branches = branch :: more ∧
        branch.condition = String.ofList label ∧ means branch.statements ∧ meansLater more := by
  intro parsing frame frames tail inside innermost splits lexed
  simp only [List.append_assoc, List.cons_append] at lexed
  obtain ⟨stream, before, mark, ⟨lexed, within⟩, split⟩ :=
    run_split parsing inside innermost splits labels lexed.indent
  obtain ⟨stream, statements, ⟨lexed, within'⟩, meant, read⟩ := first
    { parsing with
      stream := stream
      frames := next frame parsing.statements before mark label :: frames
      statements := [] } (rest ++ tail) inside lexed
  obtain ⟨stream, last, inner, ⟨lexed, within''⟩, same, branches, further⟩ := later
    { parsing with
      stream := stream
      frames := next frame parsing.statements before mark label :: frames
      statements := statements.reverse ++ [] } _ _ tail inside rfl splits lexed
  -- The branch was closed where its successor began, whatever is read after it.
  refine ⟨stream, last, inner, ⟨lexed, within''.trans (within'.trans within)⟩, same,
    fun reached => ?_, split.trans (read.trans further)⟩
  obtain ⟨upTo, more, meantLater, all⟩ := branches reached
  refine ⟨before, .mk (String.ofList label) statements ((Span.ofToken mark).upTo upTo) :: more,
    ⟨_, _, rfl, rfl, meant, meantLater⟩, ?_⟩
  rw [all]
  simp [Frame.allBranches, Frame.branch, next]

theorem ReadsBranches.one (indent : Nat) {label body : List Char} (labels : Labels label)
    {means : List Statement → Prop} (first : Reads body means) :
    ReadsBranches
      (List.replicate indent ' ' ++ ("else".toList ++ (labelText label ++ '\n' :: body)))
      fun branches => ∃ branch, branches = [branch] ∧ branch.condition = String.ofList label ∧
        means branch.statements := by
  have none : ReadsBranches [] fun branches => branches = [] := ReadsBranches.nil rfl
  have all := ReadsBranches.cons indent labels first none
  rw [List.append_nil] at all
  refine all.mono ?_
  rintro branches ⟨branch, more, rfl, same, meant, rfl⟩
  exact ⟨branch, rfl, same, meant⟩

/-! ## Blocks -/

/-- A block that its keyword opens, with its first branch, further ones, and its end. -/
theorem run_block (parsing : Parsing) (inside : parsing.diagram.isSome = true) {block : Block}
    (kept : block.isUnsupported = false) {keyword label body tail : List Char}
    (isWord : IsWord keyword) (kind : wordKind keyword = .opener block) (labels : Labels label)
    {means : List Statement → Prop} (first : Reads body means)
    (lexed : Lexed true (keyword ++ (labelText label ++ '\n' :: (body ++ tail)))
      parsing.stream.ahead) :
    ∃ stream opener statements,
      (Lexed true tail stream.ahead ∧ stream.Within parsing.stream) ∧ means statements ∧
      parsing.run =
        ({ parsing with
            stream := stream
            frames := opened block opener label parsing.statements :: parsing.frames
            statements := statements.reverse } : Parsing).run := by
  obtain ⟨stream, opener, ⟨lexed, within⟩, push⟩ :=
    run_push parsing inside kept isWord kind labels lexed
  obtain ⟨stream, statements, ⟨lexed, within'⟩, meant, read⟩ := first
    { parsing with
      stream := stream
      frames := opened block opener label parsing.statements :: parsing.frames
      statements := [] } tail inside lexed
  refine ⟨stream, opener, statements, ⟨lexed, within'.trans within⟩, meant,
    push.trans (read.trans ?_)⟩
  rw [List.append_nil]

theorem reads_block (block : Block) (statement : String → List Statement → Span → Statement)
    (closes : ∀ opener label before inner upTo reached,
      (opened block opener label before).close inner upTo reached =
        statement (String.ofList label) inner.reverse ((Span.ofToken opener).upTo reached))
    (kept : block.isUnsupported = false) {keyword label body : List Char} (isWord : IsWord keyword)
    (kind : wordKind keyword = .opener block) (labels : Labels label) (indent : Nat)
    {means : List Statement → Prop} (first : Reads body means) :
    Reads (keyword ++ (labelText label ++ '\n' ::
        (body ++ (List.replicate indent ' ' ++ ("end".toList ++ ['\n'])))))
      fun statements => ∃ inner span, means inner ∧
        statements = [statement (String.ofList label) inner span] := by
  intro parsing tail inside lexed
  simp only [List.append_assoc, List.cons_append] at lexed
  obtain ⟨stream, opener, inner, ⟨lexed, within⟩, meant, read⟩ :=
    run_block parsing inside kept isWord kind labels first lexed
  obtain ⟨stream, branchReached, reached, ⟨lexed, within'⟩, pop⟩ := run_pop
    { parsing with
      stream := stream
      frames := opened block opener label parsing.statements :: parsing.frames
      statements := inner.reverse } inside rfl lexed.indent
  rw [closes, List.reverse_reverse] at pop
  exact ⟨stream, _, ⟨lexed, within'.trans within⟩, ⟨inner, _, meant, rfl⟩, read.trans pop⟩

theorem reads_branched (block : Block) (branched : block.splitsAt .elseMark = true)
    {keyword label body rest : List Char} (isWord : IsWord keyword)
    (kind : wordKind keyword = .opener block) (labels : Labels label) (indent : Nat)
    {means : List Statement → Prop} (first : Reads body means)
    {meansLater : List Branch → Prop} (later : ReadsBranches rest meansLater) :
    Reads (keyword ++ (labelText label ++ '\n' ::
        (body ++ (rest ++ (List.replicate indent ' ' ++ ("end".toList ++ ['\n']))))))
      fun statements => ∃ (frame : Frame) (inner : List Statement) (branchReached reached : Nat)
          (branch : Branch) (more : List Branch),
        frame.block = block ∧ statements = [frame.close inner branchReached reached] ∧
        frame.allBranches inner branchReached = branch :: more ∧
        branch.condition = String.ofList label ∧ means branch.statements ∧ meansLater more := by
  intro parsing tail inside lexed
  -- A block with branches is not one of those that are read only to be left out.
  have kept : block.isUnsupported = false := by cases block <;> first | rfl | cases branched
  simp only [List.append_assoc, List.cons_append] at lexed
  obtain ⟨stream, opener, statements, ⟨lexed, within⟩, meant, read⟩ :=
    run_block parsing inside kept isWord kind labels first lexed
  obtain ⟨stream, last, inner, ⟨lexed, within'⟩, ⟨sameBlock, sameBefore⟩, branches, further⟩ :=
    later
    { parsing with
      stream := stream
      frames := opened block opener label parsing.statements :: parsing.frames
      statements := statements.reverse } _ _ _ inside rfl branched lexed
  obtain ⟨stream, branchReached, reached, ⟨lexed, within''⟩, pop⟩ := run_pop
    { parsing with
      stream := stream
      frames := last :: parsing.frames
      statements := inner } inside rfl lexed.indent
  obtain ⟨upTo, more, meantLater, all⟩ := branches branchReached
  refine ⟨stream, _, ⟨lexed, within''.trans (within'.trans within)⟩,
    ⟨last, inner, branchReached, reached, _, more, sameBlock, rfl, all, rfl, ?_, meantLater⟩, ?_⟩
  · simpa [opened, Frame.branch, Branch.statements] using meant
  · rw [read, further, pop, sameBefore]
    rfl

theorem reads_alternative {label body rest : List Char} (labels : Labels label) (indent : Nat)
    {means : List Statement → Prop} (first : Reads body means)
    {meansLater : List Branch → Prop} (later : ReadsBranches rest meansLater) :
    Reads ("alt".toList ++ (labelText label ++ '\n' ::
        (body ++ (rest ++ (List.replicate indent ' ' ++ ("end".toList ++ ['\n']))))))
      fun statements => ∃ condition branch more span, branch.condition = String.ofList label ∧
        means branch.statements ∧ meansLater more ∧
        statements = [.alternative condition (branch :: more) span] := by
  refine (reads_branched .alt rfl (by decide) (by decide) labels indent first later).mono ?_
  rintro statements ⟨frame, inner, _, reached, branch, more, isAlt, rfl, all, label, meant, meant'⟩
  refine ⟨branch.condition, branch, more, (Span.ofToken frame.opener).upTo reached, label, meant,
    meant', ?_⟩
  rw [Frame.close, isAlt]
  dsimp only
  rw [all]
  rfl

theorem reads_parallel {body rest : List Char} (indent : Nat)
    {means : List Statement → Prop} (first : Reads body means)
    {meansLater : List Branch → Prop} (later : ReadsBranches rest meansLater) :
    Reads ("par".toList ++ (labelText [] ++ '\n' ::
        (body ++ (rest ++ (List.replicate indent ' ' ++ ("end".toList ++ ['\n']))))))
      fun statements => ∃ branch more span, means branch.statements ∧ meansLater more ∧
        statements = [.parallel (branch :: more) span] := by
  refine (reads_branched .par rfl (by decide) (by decide) labels_nil indent first later).mono ?_
  rintro statements ⟨frame, inner, _, reached, branch, more, isPar, rfl, all, _, meant, meant'⟩
  refine ⟨branch, more, (Span.ofToken frame.opener).upTo reached, meant, meant', ?_⟩
  rw [Frame.close, isPar]
  dsimp only
  rw [all]

end Lifeline.Parsing
