import Lifeline.Diagram.Analysis
import Lifeline.Diagram.Walk
import Lifeline.Proofs.Diagram.Respaced
import Lifeline.Proofs.Diagram.Source
import Lifeline.Proofs.Token.Clear

/-! Free text as the source has it.

Every title, message, label and line of a note is read from a run of tokens that stands in a certain place
of the source: behind the keyword or the colon that asks for it, up to the end of the line or of what a
label can hold. What the document has for it is what that run says. This holds of what each statement
reads, every step of the reading keeps it, and so it holds of the document, however much is wrong with the
source. -/

set_option autoImplicit false

namespace Lifeline

open Token (Kind Kinds)
open Lifeline.Stream (endsLine isLabelled)

variable {source : String}

/-! ## Where texts stand -/

def TextBehind (source : String) (fits : Token → Prop) (goesOn : Kind → Bool) (text : String) : Prop :=
  ∃ before mark after, Token.ofText source.toList = before ++ mark :: after ∧ fits mark ∧
    Says source.toList (after.takeWhile (goesOn ·.kind)) text

def Block.Marks (block : Block) (kind : Kind) : Prop :=
  kind = .opener block ∨ block.splitsAt kind = true

/-- Whether a label is said behind the token at an offset, which starts a branch of a block. -/
def LabelAt (source : String) (block : Block) (offset : Nat) (label : String) : Prop :=
  TextBehind source (fun mark => block.Marks mark.kind ∧ mark.offset = offset) isLabelled label

def Token.behindColon : List Token → List Token
  | [] => []
  | first :: rest => if first.kind = .colon then rest.takeWhile (!endsLine ·.kind) else []

/-- Whether texts are what the lines of a note say, up to `end note`: each starts behind separators and
takes its whole line. -/
inductive NoteLines (source : String) : List Token → List String → Prop where
  | close {separators rest : List Token} {last name : Token} :
      (∀ token ∈ separators, token.kind.isSeparator = true) → last.kind = .endMark →
      name.kind = .note → NoteLines source (separators ++ last :: name :: rest) []
  | line {separators rest : List Token} {first : Token} {text : String} {lines : List String} :
      (∀ token ∈ separators, token.kind.isSeparator = true) →
      first.kind.isSeparator = false → first.kind ≠ .endUml →
      ¬(first.kind = .endMark ∧ rest.head?.any (·.kind == .note) = true) →
      Says source.toList (first :: rest.takeWhile (!endsLine ·.kind)) text →
      NoteLines source (rest.dropWhile (!endsLine ·.kind)) lines →
      NoteLines source (separators ++ first :: rest) (text :: lines)

/-- Whether the tokens behind the names of a note say its text: on the line, behind a colon, or on the
lines after it. -/
def NoteBehind (source : String) (tokens : List Token) (text : String) : Prop :=
  (∃ colon rest, tokens = colon :: rest ∧ colon.kind = .colon ∧
    Says source.toList (rest.takeWhile (!endsLine ·.kind)) text) ∨
  (∀ first ∈ tokens.head?, endsLine first.kind = true) ∧
    ∃ lines, text = "\n".intercalate lines ∧ NoteLines source tokens lines

def isPlace (kind : Kind) : Bool := kind.isName || kind == .comma

/-- Whether the free text of a node is what tokens of the source say, in the place that is meant for it. -/
def Node.Verbatim (source : String) (node : Node) : Prop :=
  match node.statement with
  | some (.title text span) =>
    TextBehind source (fun mark => mark.kind = .title ∧ mark.offset = span.start) (!endsLine ·) text
  | some (.message caller callee text _ _ _ span) => ∃ before sender arrow receiver after,
    Token.ofText source.toList = before ++ sender :: arrow :: receiver :: after ∧
      (sender.offset = span.start ∧ sender.value = caller) ∧ arrow.kind = .arrow ∧
      receiver.value = callee ∧ Says source.toList (Token.behindColon after) text
  | some (.note text _ _ span) => ∃ before mark place after,
    Token.ofText source.toList = before ++ mark :: (place ++ after) ∧
      (mark.kind = .note ∧ mark.offset = span.start) ∧
      (∀ token ∈ place, isPlace token.kind = true) ∧ NoteBehind source after text
  | some (.alternative condition branches _) =>
    branches.head?.map Branch.condition = some condition ∧
      ∀ branch ∈ branches, LabelAt source .alt branch.span.start branch.condition
  | some (.parallel branches _) =>
    ∀ branch ∈ branches, LabelAt source .par branch.span.start branch.condition
  | some (.loop condition _ span) => LabelAt source .loop span.start condition
  | some (.optional condition _ span) => LabelAt source .opt span.start condition
  | some (.participant ..) | some (.activation ..) | some (.deactivation ..)
  | some (.autonumber ..) | some (.error ..) | none => True

def Verbatim (source : String) (statements : List Statement) : Prop :=
  ∀ statement ∈ statements, ∀ node ∈ statement.nodes, node.Verbatim source

namespace Verbatim

variable {first second : List Statement}

theorem nil : Verbatim source [] := nofun

theorem cons {statement : Statement} (one : ∀ node ∈ statement.nodes, node.Verbatim source)
    (rest : Verbatim source second) : Verbatim source (statement :: second) :=
  List.forall_mem_cons.2 ⟨one, rest⟩

theorem append (one : Verbatim source first) (two : Verbatim source second) :
    Verbatim source (first ++ second) := List.forall_mem_append.2 ⟨one, two⟩

theorem reverse (verbatim : Verbatim source first) : Verbatim source first.reverse :=
  fun statement member => verbatim statement (List.mem_reverse.1 member)

theorem nodes (verbatim : Verbatim source first) :
    ∀ node ∈ nodesOfStatements first, node.Verbatim source := by
  induction first with
  | nil => nofun
  | cons statement rest ih =>
    obtain ⟨one, later⟩ := List.forall_mem_cons.1 verbatim
    rw [nodesOfStatements]
    exact List.forall_mem_append.2 ⟨one, ih later⟩

end Verbatim

/-! ## Streams of a source -/

def Stream.Of (source : String) (stream : Stream) : Prop :=
  stream.ahead <:+ Token.ofText source.toList

structure Stream.Behind (source : String) (token : Token) (stream : Stream) : Prop where
  split : ∃ before, Token.ofText source.toList = before ++ token :: stream.ahead
  of : stream.Of source

namespace Stream

variable {stream left : Stream} {token : Token}

theorem Of.follows (whole : stream.Of source) (follows : left.Follows stream) : left.Of source :=
  List.IsSuffix.trans follows.within whole

theorem Of.drop (whole : stream.Of source) (count : Nat) : (stream.drop count).Of source :=
  whole.follows (follows_drop stream count)

theorem Of.behind (whole : stream.Of source) {rest : List Token} (ahead : stream.ahead = token :: rest) :
    (stream.drop 1).Behind source token where
  split := by
    obtain ⟨before, split⟩ := whole
    exact ⟨before, by rw [ahead_drop_one ahead, ← ahead, split]⟩
  of := whole.drop 1

theorem Of.said (whole : stream.Of source) (kinds : Kinds) :
    Says source.toList (stream.ahead.takeWhile (kinds ·.kind)) (join (stream.run kinds)) := by
  rw [run_eq_takeWhile]
  exact said_join ((List.takeWhile_prefix _).isInfix.trans (List.IsSuffix.isInfix whole))

theorem Behind.text (behind : stream.Behind source token) (fits : Token → Prop) (fit : fits token)
    (kinds : Kinds) : TextBehind source fits kinds (join (stream.run kinds)) := by
  obtain ⟨before, split⟩ := behind.split
  exact ⟨before, token, stream.ahead, split, fit, behind.of.said kinds⟩

theorem Behind.label {block : Block} (behind : stream.Behind source token)
    (marks : block.Marks token.kind) : LabelAt source block token.offset stream.label.1 :=
  behind.text _ ⟨marks, rfl⟩ labelled

end Stream

/-! ## Single statements -/

namespace Stream

/-- Whether a stream is what is left of another one behind tokens that tell where a note stands. -/
def Passes (stream left : Stream) : Prop :=
  ∃ place, stream.ahead = place ++ left.ahead ∧ ∀ token ∈ place, isPlace token.kind = true

namespace Passes

variable {stream middle left : Stream}

theorem refl (stream : Stream) : stream.Passes stream := ⟨[], rfl, nofun⟩

theorem trans (one : stream.Passes middle) (two : middle.Passes left) : stream.Passes left := by
  obtain ⟨first, same, places⟩ := one
  obtain ⟨second, same', places'⟩ := two
  exact ⟨first ++ second, by rw [same, same', List.append_assoc],
    List.forall_mem_append.2 ⟨places, places'⟩⟩

theorem drop_one {token : Token} {rest : List Token} (ahead : stream.ahead = token :: rest)
    (place : isPlace token.kind = true) : stream.Passes (stream.drop 1) :=
  ⟨[token], by rw [ahead, ahead_drop_one ahead]; rfl, List.forall_mem_singleton.2 place⟩

theorem word {word : String} (atWord : stream.atWord word = true) :
    stream.Passes (stream.drop 1) := by
  have identifier : stream.peek.kind = .identifier := eq_of_beq (Bool.and_eq_true_iff.1 atWord).1
  obtain ⟨rest, ahead⟩ := exists_ahead (by rw [identifier]; decide)
  exact drop_one ahead (by rw [identifier]; rfl)

theorem name {token : Token} (found : stream.name? = some (token, left)) : stream.Passes left := by
  obtain ⟨rfl, name, rest, ahead⟩ := name?_eq_some found
  exact drop_one ahead (by rw [isPlace, name]; rfl)

theorem further (stream : Stream) : stream.Passes (Leaf.furtherNames stream).2 := by
  fun_induction Leaf.furtherNames stream with
  | case1 stream listed names left result ih =>
    obtain ⟨comma, name, rest, ahead, further, -⟩ := Leaf.further_of_listed listed
    have first := drop_one ahead (by rw [further.1]; rfl)
    have second := drop_one (ahead_drop_one ahead) (by rw [isPlace, further.2]; rfl)
    rw [drop_drop] at second
    rw [result] at ih
    exact (first.trans second).trans ih
  | case2 stream => exact refl stream

theorem targets (stream : Stream) : stream.Passes (Leaf.targets stream).2 := by
  unfold Leaf.targets
  split
  · exact refl stream
  · rename_i found
    exact (name found).trans (further _)

theorem placement (stream : Stream) : stream.Passes (Leaf.placement stream).2 := by
  unfold Leaf.placement
  split
  · rename_i beside
    have side : stream.Passes (stream.drop 1) := by
      rcases Bool.or_eq_true_iff.1 beside with left | right
      · exact word left
      · exact word right
    dsimp only
    refine side.trans (trans ?_ (targets _))
    split
    · rename_i atOf
      exact word atOf
    · exact refl _
  · split
    · rename_i across
      have names := (word across).trans (targets (stream.drop 1))
      split <;> rename_i same <;> rw [same] at names <;> exact names
    · exact refl stream

end Passes

end Stream

namespace Leaf

def Verbatim (source : String) (leaf : Leaf) : Prop :=
  ∀ statement ∈ leaf.statement, ∀ node ∈ statement.nodes, node.Verbatim source

theorem verbatim_none (issue : Option Diagnostic) (left : Stream) :
    Verbatim source ⟨none, issue, left⟩ := nofun

theorem verbatim_single {statement : Statement}
    (single : statement.nodes = [⟨statement.kind, some statement⟩])
    (verbatim : Node.Verbatim source ⟨statement.kind, some statement⟩) (issue : Option Diagnostic)
    (left : Stream) : Verbatim source ⟨some statement, issue, left⟩ := by
  intro other same
  obtain rfl := Option.some.inj same
  rw [single]
  exact List.forall_mem_singleton.2 verbatim

variable {stream : Stream} {token : Token}

theorem verbatim_onName (missing : String) (statement : String → Span → Statement)
    (verbatim : ∀ target span left, Verbatim source ⟨some (statement target span), none, left⟩) :
    (onName missing statement token stream).Verbatim source := by
  unfold onName
  split
  · exact verbatim_none _ _
  · exact verbatim _ _ _

theorem verbatim_title (behind : stream.Behind source token) (title : token.kind = .title) :
    (Leaf.title token stream).Verbatim source := by
  apply verbatim_single rfl
  obtain ⟨before, split⟩ := behind.split
  exact ⟨before, token, stream.ahead, split, ⟨title, rfl⟩,
    behind.of.said Stream.inLine⟩

theorem said_colon (whole : stream.Of source) :
    Says source.toList (Token.behindColon stream.ahead)
      (if stream.atKind .colon then (stream.drop 1).restOfLine else ("", stream)).1 := by
  cases ahead : stream.ahead with
  | nil =>
    -- What is ahead is the end mark, and that is no colon.
    have noColon : stream.atKind .colon = false := by
      rw [Stream.atKind, Stream.kind_peek_of_nil ahead]
      rfl
    rw [noColon]
    exact .inl ⟨rfl, rfl⟩
  | cons first rest =>
    rw [Stream.atKind_of_ahead ahead, Token.behindColon]
    by_cases colon : first.kind = .colon
    · rw [if_pos colon, if_pos (by simp [colon])]
      have said := (whole.drop 1).said Stream.inLine
      rwa [Stream.ahead_drop_one ahead] at said
    · rw [if_neg colon, if_neg (by simpa using colon)]
      exact .inl ⟨rfl, rfl⟩

theorem verbatim_message (behind : stream.Behind source token) :
    (message token stream).Verbatim source := by
  unfold message
  split
  · split
    · rename_i arrow
      dsimp only
      split
      · exact verbatim_none _ _
      · rename_i receiver left found
        obtain ⟨rfl, -, rest, ahead⟩ := Stream.name?_eq_some found
        have mark : stream.peek.kind = .arrow := eq_of_beq arrow
        obtain ⟨more, ahead'⟩ := Stream.exists_ahead (by rw [mark]; decide)
        obtain rfl : more = receiver :: rest := by rw [← ahead, Stream.ahead_drop_one ahead']
        have said := said_colon ((behind.of.drop 1).drop 1)
        rw [Stream.ahead_drop_one ahead] at said
        obtain ⟨before, split⟩ := behind.split
        rw [ahead'] at split
        apply verbatim_single rfl
        exact ⟨before, token, stream.peek, receiver, rest, split, ⟨rfl, rfl⟩, mark, rfl, said⟩
    · exact verbatim_none _ _
  · exact verbatim_none _ _

theorem separators_append (stream : Stream) :
    stream.ahead = stream.run Stream.separators ++ stream.skipSeparators.ahead ∧
      ∀ token ∈ stream.run Stream.separators, token.kind.isSeparator = true := by
  rw [Stream.run_eq_takeWhile, Stream.ahead_skipSeparators]
  refine ⟨List.takeWhile_append_dropWhile.symm, fun token member => ?_⟩
  exact List.mem_takeWhile_imp (p := fun token => Kind.isSeparator (Token.kind token)) member

theorem noteLines_noteBody (whole : stream.Of source) :
    ∀ lines ∈ (noteBody stream).1, NoteLines source stream.ahead lines := by
  fun_induction noteBody stream with
  | case1 => rintro _ ⟨⟩
  | case2 stream line inside =>
    rename_i closes
    rintro _ ⟨⟩
    obtain ⟨cut, separators⟩ := separators_append stream
    obtain ⟨mark, rest, ahead, -⟩ := exists_line inside
    obtain ⟨last, named⟩ := Bool.and_eq_true_iff.1 closes
    rw [Stream.atKind_of_ahead ahead, beq_iff_eq] at last
    rw [Stream.peekAt_one ahead, beq_iff_eq] at named
    cases rest with
    | nil =>
      rw [List.headD_nil, Stream.kind_eof] at named
      cases named
    | cons name rest =>
      rw [cut, ahead]
      exact .close separators last named
  | case3 stream line inside opens lines left result =>
    rename_i ih
    intro texts same
    obtain ⟨further, more, rfl⟩ := Option.map_eq_some_iff.1 same
    obtain ⟨cut, separators⟩ := separators_append stream
    obtain ⟨first, rest, ahead, goesOn⟩ := exists_line inside
    have later : line.Of source := whole.follows (Stream.follows_skip _ _)
    have said := later.said Stream.inLine
    have behind := line.ahead_skip_eq Stream.inLine
    have lines' := ih (later.follows (Stream.follows_skip _ _)) further (by rw [result]; exact more)
    have kept : Stream.inLine first.kind = true := by simp [Stream.inLine, goesOn]
    rw [ahead, List.takeWhile_cons, if_pos kept] at said
    rw [ahead, List.dropWhile_cons, if_pos kept] at behind
    rw [Stream.restOfLine, behind] at lines'
    rw [cut, ahead]
    obtain ⟨noEnd, noEndUml⟩ := Bool.or_eq_false_iff.1 goesOn
    refine .line separators (Bool.or_eq_false_iff.1 noEnd).1 (by simpa using noEndUml) ?_ said lines'
    rintro ⟨mark, named⟩
    refine opens (Bool.and_eq_true_iff.2 ⟨?_, ?_⟩)
    · rw [Stream.atKind_of_ahead ahead, mark]
      rfl
    · rw [Stream.peekAt_one ahead]
      cases rest with
      | nil => cases named
      | cons name rest => exact named

theorem verbatim_note (behind : stream.Behind source token) (note : token.kind = .note) :
    (Leaf.note token stream).Verbatim source := by
  obtain ⟨place, ahead, places⟩ := Stream.Passes.placement stream
  have whole := behind.of.follows (follows_placement stream)
  obtain ⟨before, split⟩ := behind.split
  unfold Leaf.note
  split
  · exact verbatim_none _ _
  · rename_i side target left same
    rw [same] at ahead whole
    dsimp only at ahead whole
    have reads {text : String} (stop : Stream) (said : NoteBehind source left.ahead text) :
        Node.Verbatim source ⟨.note, some (.note text target side (spanFrom token stop))⟩ :=
      ⟨before, token, place, left.ahead, by rw [split, ahead], ⟨note, rfl⟩, places, said⟩
    split
    · rename_i colon
      apply verbatim_single rfl
      apply reads
      left
      have mark : left.peek.kind = .colon := eq_of_beq colon
      obtain ⟨rest, ahead⟩ := Stream.exists_ahead (by rw [mark]; decide)
      have said := (whole.drop 1).said Stream.inLine
      rw [Stream.ahead_drop_one ahead] at said
      exact ⟨_, rest, ahead, mark, said⟩
    · split
      · rename_i ends
        split
        · exact verbatim_none _ _
        · rename_i lines last body
          apply verbatim_single rfl
          apply reads
          have said := noteLines_noteBody whole lines (by rw [body]; rfl)
          refine .inr ⟨?_, lines, rfl, said⟩
          intro first head
          obtain ⟨rest, ahead⟩ := List.head?_eq_some_iff.1 head
          rwa [Stream.peek_of_ahead ahead] at ends
      · exact verbatim_none _ _

end Leaf

/-! ## Blocks -/

structure Frame.Verbatim (source : String) (frame : Frame) : Prop where
  mark : frame.mark = frame.opener ∨ frame.block.splitsAt frame.mark.kind = true
  label : LabelAt source frame.block frame.mark.offset frame.label
  branches : ∀ branch ∈ frame.branches,
    LabelAt source frame.block branch.span.start branch.condition ∧
      Lifeline.Verbatim source branch.statements
  before : Lifeline.Verbatim source frame.before

theorem verbatim_branches {branches : List Branch}
    (verbatim : ∀ branch ∈ branches, Verbatim source branch.statements) :
    ∀ node ∈ nodesOfBranches branches, node.Verbatim source := by
  induction branches with
  | nil => nofun
  | cons branch rest ih =>
    obtain ⟨condition, statements, span⟩ := branch
    obtain ⟨first, later⟩ := List.forall_mem_cons.1 verbatim
    rw [nodesOfBranches, Branch.nodes]
    apply List.forall_mem_append.2 ⟨_, ih later⟩
    exact List.forall_mem_cons.2 ⟨trivial, first.nodes⟩

namespace Frame.Verbatim

variable {frame : Frame} {inner : List Statement}

theorem allBranches (verbatim : frame.Verbatim source) (body : Lifeline.Verbatim source inner)
    (reached : Nat) : ∀ branch ∈ frame.allBranches inner reached,
      LabelAt source frame.block branch.span.start branch.condition ∧
        Lifeline.Verbatim source branch.statements := by
  intro branch member
  rw [Frame.allBranches, List.mem_reverse] at member
  rcases List.mem_cons.1 member with rfl | earlier
  · exact ⟨verbatim.label, body.reverse⟩
  · exact verbatim.branches branch earlier

theorem label_of_whole (verbatim : frame.Verbatim source) {block : Block} (same : frame.block = block)
    (whole : ∀ kind, block.splitsAt kind = false) :
    LabelAt source block frame.opener.offset frame.label := by
  have label := verbatim.label
  rw [same] at label
  rcases verbatim.mark with first | splits
  · rwa [first] at label
  · rw [same, whole] at splits
    cases splits

theorem close (verbatim : frame.Verbatim source) (body : Lifeline.Verbatim source inner)
    (branchReached reached : Nat) :
    ∀ node ∈ (frame.close inner branchReached reached).nodes, node.Verbatim source := by
  have branches := verbatim.allBranches body branchReached
  have inside := verbatim_branches fun branch member => (branches branch member).2
  unfold Frame.close
  dsimp only
  split
  · rename_i alt
    rw [alt] at branches
    refine List.forall_mem_cons.2 ⟨⟨?_, fun branch member => (branches branch member).1⟩, inside⟩
    obtain ⟨first, rest, same⟩ := List.exists_cons_of_ne_nil
      (show frame.allBranches inner branchReached ≠ [] by simp [Frame.allBranches])
    rw [same]
    rfl
  · rename_i par
    rw [par] at branches
    exact List.forall_mem_cons.2 ⟨fun branch member => (branches branch member).1, inside⟩
  · rename_i loop
    have label := verbatim.label_of_whole loop (by intro kind; cases kind <;> rfl)
    exact List.forall_mem_cons.2 ⟨label, body.reverse.nodes⟩
  · rename_i opt
    have label := verbatim.label_of_whole opt (by intro kind; cases kind <;> rfl)
    exact List.forall_mem_cons.2 ⟨label, body.reverse.nodes⟩
  all_goals exact List.forall_mem_singleton.2 trivial

end Frame.Verbatim

/-! ## The machine -/

namespace Parsing

structure Verbatim (source : String) (parsing : Parsing) : Prop where
  stream : parsing.stream.Of source
  frames : ∀ frame ∈ parsing.frames, frame.Verbatim source
  statements : Lifeline.Verbatim source parsing.statements
  diagrams : ∀ diagram ∈ parsing.diagrams, Lifeline.Verbatim source diagram.statements

namespace Verbatim

variable {parsing : Parsing} {token : Token} {frame : Frame} {frames : List Frame}

theorem accept (verbatim : parsing.Verbatim source) {leaf : Leaf} (read : leaf.Verbatim source)
    (follows : leaf.left.Follows parsing.stream) : (parsing.accept leaf).Verbatim source where
  stream := verbatim.stream.follows follows
  frames := verbatim.frames
  statements := by
    refine Lifeline.Verbatim.append (fun statement member => ?_) verbatim.statements
    exact read statement (Option.mem_toList.1 member)
  diagrams := verbatim.diagrams

theorem push (verbatim : parsing.Verbatim source) (behind : parsing.stream.Behind source token)
    {block : Block} (opens : token.kind = .opener block) :
    (parsing.push block token).Verbatim source where
  stream := verbatim.stream.follows (Stream.follows_skip _ _)
  frames := List.forall_mem_cons.2
    ⟨⟨.inl rfl, behind.label (.inl opens), nofun, verbatim.statements⟩, verbatim.frames⟩
  statements := .nil
  diagrams := verbatim.diagrams

theorem split (verbatim : parsing.Verbatim source) (behind : parsing.stream.Behind source token)
    (opened : parsing.frames = frame :: frames) (splits : frame.block.splitsAt token.kind = true)
    (reached : Nat) : (parsing.split frame frames token reached).Verbatim source where
  stream := verbatim.stream.follows (Stream.follows_skip _ _)
  frames := by
    obtain ⟨inner, outer⟩ := List.forall_mem_cons.1 (opened ▸ verbatim.frames)
    refine List.forall_mem_cons.2 ⟨⟨.inr splits, behind.label (.inr splits), ?_, inner.before⟩, outer⟩
    exact List.forall_mem_cons.2 ⟨⟨inner.label, verbatim.statements.reverse⟩, inner.branches⟩
  statements := .nil
  diagrams := verbatim.diagrams

theorem pop (verbatim : parsing.Verbatim source) (opened : parsing.frames = frame :: frames)
    (reached : Nat) : (parsing.pop frame frames reached).Verbatim source where
  stream := verbatim.stream
  frames := (List.forall_mem_cons.1 (opened ▸ verbatim.frames)).2
  statements := by
    obtain ⟨inner, -⟩ := List.forall_mem_cons.1 (opened ▸ verbatim.frames)
    exact .cons (inner.close verbatim.statements _ _) inner.before
  diagrams := verbatim.diagrams

theorem abandon (current : Token) (reached : Nat) {frames : List Frame}
    {statements : List Statement} (unclosed : ∀ frame ∈ frames, frame.Verbatim source)
    (verbatim : Lifeline.Verbatim source statements) (issues : List Diagnostic) :
    Lifeline.Verbatim source (abandon current reached frames statements issues).1 := by
  induction frames generalizing statements issues with
  | nil => exact verbatim
  | cons frame frames ih =>
    obtain ⟨inner, outer⟩ := List.forall_mem_cons.1 unclosed
    exact ih outer (.cons (inner.close verbatim _ _) inner.before) _

theorem finish (verbatim : parsing.Verbatim source) (opened current : Token) (reached : Nat) :
    (parsing.finish opened current reached).Verbatim source where
  stream := verbatim.stream
  frames := by simp [Parsing.finish]
  statements := .nil
  diagrams := List.forall_mem_cons.2
    ⟨(abandon current reached verbatim.frames verbatim.statements _).reverse, verbatim.diagrams⟩

theorem leaf {stream : Stream} (behind : stream.Behind source token) :
    (leaf token stream).Verbatim source := by
  unfold Parsing.leaf
  split
  · unfold Leaf.participant
    split
    · exact Leaf.verbatim_none _ _
    · refine Leaf.verbatim_single rfl ?_ _ _
      exact trivial
  · rename_i title
    exact Leaf.verbatim_title behind title
  · rename_i note
    exact Leaf.verbatim_note behind note
  · refine Leaf.verbatim_onName _ .activation fun _ _ _ => Leaf.verbatim_single rfl ?_ _ _
    exact trivial
  · refine Leaf.verbatim_onName _ .deactivation fun _ _ _ => Leaf.verbatim_single rfl ?_ _ _
    exact trivial
  · refine Leaf.verbatim_single rfl ?_ _ _
    exact trivial
  · exact Leaf.verbatim_none _ _
  · exact Leaf.verbatim_message behind

theorem inside (verbatim : parsing.Verbatim source) (behind : parsing.stream.Behind source token)
    (opened : Token) (reached : Nat) : (parsing.inside opened token reached).Verbatim source := by
  have read := verbatim.accept (leaf behind) (follows_leaf _ _)
  unfold Parsing.inside
  split
  · exact verbatim.finish _ _ _
  · rename_i opens
    exact verbatim.push behind opens
  · rename_i same
    exact verbatim.pop same _
  · rename_i same _ _ _
    split
    · rename_i splits
      exact verbatim.split behind same splits _
    · exact read
  · exact read

theorem step (verbatim : parsing.Verbatim source) {rest : List Token}
    (ahead : parsing.stream.ahead = token :: rest) : (parsing.step token).Verbatim source := by
  have after : Verbatim source { parsing with stream := parsing.stream.drop 1 } :=
    ⟨verbatim.stream.drop 1, verbatim.frames, verbatim.statements, verbatim.diagrams⟩
  unfold Parsing.step
  dsimp only
  split
  · exact after.inside (verbatim.stream.behind ahead) _ _
  · unfold outside
    split
    · exact ⟨after.stream, after.frames, after.statements, after.diagrams⟩
    · exact ⟨after.stream, after.frames, after.statements, after.diagrams⟩

theorem skipSeparators (verbatim : parsing.Verbatim source) : parsing.skipSeparators.Verbatim source :=
  ⟨verbatim.stream.follows (Stream.follows_skip _ _), verbatim.frames, verbatim.statements,
    verbatim.diagrams⟩

theorem run (verbatim : parsing.Verbatim source) : parsing.run.Verbatim source :=
  run_keeps (fun _ verbatim => verbatim.skipSeparators) (fun _ _ _ verbatim => verbatim.step)
    verbatim

theorem complete (verbatim : parsing.Verbatim source) : parsing.complete.Verbatim source := by
  unfold Parsing.complete
  split
  · exact verbatim
  · exact verbatim.finish _ _ _

end Verbatim

end Parsing

/-- Free text keeps every character. Each title, message, label and line of a note in a document, at any
depth, is what a run of tokens on one line says, in the place that is meant for it: nothing for no tokens,
the inside of a string for a string alone, and otherwise the piece of the source from the first token to the
last, with one space for the blanks of each gap between two of them. -/
theorem verbatim_ofSource (source : String) :
    (∃ stop, (tokenize source).tokens = Token.ofText source.toList ++ [stop] ∧ stop.kind = .eof) ∧
      ∀ statement ∈ (Document.ofSource source).statements, ∀ node ∈ statement.nodes,
        node.Verbatim source := by
  constructor
  · exact ⟨_, Token.tokens_tokenize source, rfl⟩
  · have whole : (Stream.ofTokens (tokenize source).tokens).Of source := by
      rw [Stream.Of, ahead_ofTokens]
      exact List.suffix_refl _
    have start : (Parsing.start (Stream.ofTokens (tokenize source).tokens)).Verbatim source :=
      ⟨whole, by simp [Parsing.start], .nil, by simp [Parsing.start]⟩
    have read := start.run.complete
    intro statement member
    obtain ⟨diagram, inside, within⟩ := List.mem_flatMap.1 member
    exact read.diagrams diagram (List.mem_reverse.1 inside) statement within

end Lifeline
