import Lifeline.Diagram.Parse
import Lifeline.Proofs.Diagram.Leaf

/-! The machine, on text that writes statements.

A text reads as statements if the machine, wherever it stands inside a diagram, goes over the text's
tokens, reports nothing and adds those statements. Texts that read follow one another and go into
blocks. -/

set_option autoImplicit false

namespace Lifeline.Parsing

open Token (Lexed Kind)

variable {parsing : Parsing} {token : Token} {more : List Token}

theorem run_of_nil (nothing : parsing.skipSeparators.stream.ahead = []) :
    parsing.run = parsing.skipSeparators := by
  rw [run, if_pos (Stream.atEnd_iff.2 nothing)]

theorem run_of_cons (ahead : parsing.skipSeparators.stream.ahead = token :: more) :
    parsing.run = (parsing.skipSeparators.step token).run := by
  rw [run, Stream.atEnd_of_ahead ahead, if_neg Bool.false_ne_true, Stream.peek_of_ahead ahead]

theorem run_nil (ahead : parsing.stream.ahead = []) : parsing.run = parsing := by
  have stays : parsing.skipSeparators = parsing := by
    rw [skipSeparators, Stream.skipSeparators, Stream.skip_eq_self (by simp [ahead])]
  rw [run_of_nil (by rwa [stays]), stays]

theorem run_cons (ahead : parsing.stream.ahead = token :: more)
    (statement : token.kind.isSeparator = false) : parsing.run = (parsing.step token).run := by
  have stays : parsing.skipSeparators = parsing := by
    have same : parsing.stream.skipSeparators = parsing.stream := Stream.skip_eq_self (by
      rw [ahead]
      rintro first ⟨⟩
      exact statement)
    rw [skipSeparators, same]
  rw [run_of_cons (by rwa [stays]), stays]

/-- Induction on the rounds of a run: it goes over separators, and either ends there or takes a step
with the next token. -/
theorem run_induct {motive : Parsing → Prop}
    (done : ∀ parsing : Parsing, parsing.skipSeparators.stream.ahead = [] → motive parsing)
    (round : ∀ (parsing : Parsing) (token : Token) (rest : List Token),
      parsing.skipSeparators.stream.ahead = token :: rest →
      motive (parsing.skipSeparators.step token) → motive parsing) (parsing : Parsing) :
    motive parsing := by
  induction parsing using run.induct with
  | case1 parsing next atEnd => exact done parsing (Stream.atEnd_iff.1 atEnd)
  | case2 parsing next inside ih =>
    obtain ⟨rest, ahead⟩ := Stream.exists_ahead fun eof => inside (beq_iff_eq.2 eof)
    exact round parsing next.stream.peek rest ahead ih

theorem run_keeps {holds : Parsing → Prop}
    (skips : ∀ parsing, holds parsing → holds parsing.skipSeparators)
    (steps : ∀ (parsing : Parsing) (token : Token) (rest : List Token), holds parsing →
      parsing.stream.ahead = token :: rest → holds (parsing.step token))
    (held : holds parsing) : holds parsing.run := by
  induction parsing using run_induct with
  | done parsing nothing => exact run_of_nil nothing ▸ skips parsing held
  | round parsing token rest ahead ih =>
    exact run_of_cons ahead ▸ ih (steps _ token rest (skips parsing held) ahead)

/-- A run goes on in its stream, to the next end mark. -/
theorem stream_run (parsing : Parsing) :
    parsing.run.stream.Follows parsing.stream ∧ parsing.run.stream.ahead = [] := by
  induction parsing using run_induct with
  | done parsing nothing =>
    rw [run_of_nil nothing]
    exact ⟨Stream.follows_skip _ _, nothing⟩
  | round parsing token rest ahead ih =>
    rw [run_of_cons ahead]
    have step := (follows_step parsing.skipSeparators token).trans (Stream.follows_drop _ 1)
    exact ⟨ih.1.trans (step.trans (Stream.follows_skip _ _)), ih.2⟩

theorem peek_run (parsing : Parsing) : parsing.run.stream.peek = parsing.stream.eof := by
  obtain ⟨follows, nothing⟩ := parsing.stream_run
  rw [Stream.peek_eq, nothing, List.headD_nil, follows.eof_eq]

theorem stream_complete (parsing : Parsing) : parsing.complete.stream = parsing.stream := by
  unfold complete
  split <;> rfl

/-- The machine after the next token, which it leaves out. -/
def advance (parsing : Parsing) : Parsing := { parsing with stream := parsing.stream.drop 1 }

theorem run_separator (ahead : parsing.stream.ahead = token :: more)
    (separator : token.kind.isSeparator = true) : parsing.run = parsing.advance.run := by
  have same : parsing.skipSeparators = parsing.advance.skipSeparators := by
    rw [skipSeparators, Stream.skipSeparators_cons ahead separator]
    rfl
  rw [run.eq_def parsing, run.eq_def parsing.advance, same]

theorem run_lineFeed (parsing : Parsing) {lineStarts : Bool} {tail : List Char}
    (lexed : Lexed lineStarts ('\n' :: tail) parsing.stream.ahead) :
    ∃ stream : Stream, (Lexed true tail stream.ahead ∧ stream.Within parsing.stream) ∧
      parsing.run = ({ parsing with stream := stream } : Parsing).run := by
  obtain ⟨newline, more, ahead, kind, later⟩ := lexed.lineFeed
  rw [← Stream.ahead_drop_one ahead] at later
  exact ⟨_, ⟨later, Stream.within_drop _ 1⟩, run_separator ahead (by rw [kind]; rfl)⟩

/-- Kinds of tokens that start a statement of their own, whatever blocks are open. -/
def startsLeaf (kind : Kind) : Bool :=
  !kind.isBlockBoundary && kind != .endUml && !kind.isSeparator

theorem step_inside {opened : Token} (inside : parsing.diagram = some opened) (token : Token) :
    parsing.step token = parsing.advance.inside opened token parsing.stream.reached := by
  rw [step]
  split
  · rename_i same
    rw [inside] at same
    cases same
    rfl
  · rename_i same
    rw [inside] at same
    cases same

theorem step_outside (outside : parsing.diagram = none) (token : Token) :
    parsing.step token = parsing.advance.outside token := by
  rw [step]
  split
  · rename_i same
    rw [outside] at same
    cases same
  · rfl

theorem inside_of_startsLeaf (parsing : Parsing) (opened : Token) (reached : Nat)
    (starts : startsLeaf token.kind = true) :
    parsing.inside opened token reached = parsing.accept (leaf token parsing.stream) := by
  -- No block takes such a token for the start of its next branch.
  have noSplit (block : Block) : block.splitsAt token.kind = false := by
    cases block <;> cases kind : token.kind <;> rw [kind] at starts <;> first | rfl | cases starts
  rw [Parsing.inside]
  split
  · rename_i kind
    rw [kind] at starts
    cases starts
  · rename_i kind
    rw [kind] at starts
    cases starts
  · rename_i kind _
    rw [kind] at starts
    cases starts
  · rw [noSplit, if_neg Bool.false_ne_true]
  · rfl

/-- What it takes for a text to be read as statements. -/
def Reads (text : List Char) (means : List Statement → Prop) : Prop :=
  ∀ (parsing : Parsing) (tail : List Char), parsing.diagram.isSome = true →
    Lexed true (text ++ tail) parsing.stream.ahead →
    ∃ stream statements, (Lexed true tail stream.ahead ∧ stream.Within parsing.stream) ∧
      means statements ∧
      parsing.run =
        ({ parsing with
            stream := stream
            statements := statements.reverse ++ parsing.statements } : Parsing).run

namespace Reads

variable {text : List Char} {means : List Statement → Prop}

theorem nil (none : means []) : Reads [] means := fun parsing _ _ lexed =>
  ⟨parsing.stream, [], ⟨lexed, Stream.Within.refl _⟩, none, rfl⟩

theorem mono {other : List Statement → Prop} (reads : Reads text means)
    (implies : ∀ statements, means statements → other statements) : Reads text other := by
  intro parsing tail inside lexed
  obtain ⟨stream, statements, later, said, run⟩ := reads parsing tail inside lexed
  exact ⟨stream, statements, later, implies statements said, run⟩

theorem indent (count : Nat) (reads : Reads text means) :
    Reads (List.replicate count ' ' ++ text) means := by
  intro parsing tail inside lexed
  rw [List.append_assoc] at lexed
  exact reads parsing tail inside lexed.indent

theorem append {later : List Char} {meansLater both : List Statement → Prop}
    (first : Reads text means) (second : Reads later meansLater)
    (join : ∀ one two, means one → meansLater two → both (one ++ two)) :
    Reads (text ++ later) both := by
  intro parsing tail inside lexed
  rw [List.append_assoc] at lexed
  obtain ⟨stream, one, ⟨middle, within⟩, said, run⟩ := first parsing (later ++ tail) inside lexed
  obtain ⟨stream', two, ⟨last, within'⟩, said', run'⟩ := second
    { parsing with stream := stream, statements := one.reverse ++ parsing.statements } tail inside
    middle
  refine ⟨stream', one ++ two, ⟨last, within'.trans within⟩, join one two said said', ?_⟩
  rw [run, run', List.reverse_append, List.append_assoc]

theorem pair {later : List Char} {meansLater : List Statement → Prop}
    (first : Reads text means) (second : Reads later meansLater) :
    Reads (text ++ later) fun statements =>
      ∃ one two, statements = one ++ two ∧ means one ∧ meansLater two :=
  first.append second fun one two said said' => ⟨one, two, rfl, said, said'⟩

theorem lineFeed (none : means []) : Reads ['\n'] means := by
  intro parsing tail inside lexed
  obtain ⟨stream, later, run⟩ := run_lineFeed parsing lexed
  exact ⟨stream, [], later, none, run⟩

theorem leaf {line : List Char} {meansOne : Statement → Prop}
    (each : ∀ tail tokens, Lexed true (line ++ '\n' :: tail) tokens →
      ∃ token more, tokens = token :: more ∧ startsLeaf token.kind = true ∧
        ∀ stream : Stream, stream.ahead = more → ∃ statement left,
          Parsing.leaf token stream = ⟨some statement, none, left⟩ ∧ meansOne statement ∧
            Lexed false ('\n' :: tail) left.ahead) :
    Reads (line ++ ['\n']) fun statements => ∃ statement, statements = [statement] ∧
      meansOne statement := by
  intro parsing tail inside lexed
  rw [List.append_assoc, List.singleton_append] at lexed
  obtain ⟨opened, inside⟩ := Option.isSome_iff_exists.1 inside
  obtain ⟨token, more, ahead, starts, reading⟩ := each tail _ lexed
  obtain ⟨statement, left, read, said, later⟩ :=
    reading parsing.advance.stream (Stream.ahead_drop_one ahead)
  have noSeparator : token.kind.isSeparator = false := by
    cases kind : token.kind <;> rw [kind] at starts <;> first | rfl | cases starts
  have first : parsing.run = ({ parsing with
      stream := left
      statements := statement :: parsing.statements } : Parsing).run := by
    rw [run_cons ahead noSeparator, step_inside inside, inside_of_startsLeaf _ _ _ starts, read]
    rfl
  obtain ⟨stream, ⟨later', within⟩, second⟩ := run_lineFeed { parsing with
      stream := left
      statements := statement :: parsing.statements } later
  -- What the statement leaves is needed as a part of the source, to know its last token in the end.
  have before : left.Within parsing.stream := by
    have whole := (follows_leaf token parsing.advance.stream).within.trans (Stream.within_drop _ 1)
    rwa [read] at whole
  exact ⟨stream, [statement], ⟨later', within.trans before⟩, ⟨statement, rfl, said⟩,
    first.trans second⟩

end Reads

end Lifeline.Parsing
