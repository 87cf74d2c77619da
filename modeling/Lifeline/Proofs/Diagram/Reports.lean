import Lifeline.Proofs.Diagram.Cursor
import Lifeline.Proofs.Diagram.Spans
import Lifeline.Proofs.Token.Position

/-! What is wrong with a source, in the order of its tokens.

A report is about the token that the reading stands before, or about one that it has just read. Nothing is
read twice, so no report is about a token before that of an earlier one, whether the reports come from
statements, from blocks that are not closed, or from what stands between diagrams. -/

set_option autoImplicit false

namespace Lifeline

/-! ## Statements -/

namespace Leaf

open Lifeline.Stream (Follows follows_skip follows_drop follows_name?)

def complaints : List String :=
  ["Expected participant name", "Expected participant alias", "Expected message sender",
   "Expected arrow", "Expected message receiver", "Expected target for activation",
   "Expected target for deactivation", "Expected note target", "Expected ':' after note",
   "Expected end note"]

/-- Whether what is wrong with a statement is reported on the token that it starts with, or on one that
the reading stood before at some point. -/
def ReportsFrom (token : Token) (stream : Stream) (leaf : Leaf) : Prop :=
  ∀ issue ∈ leaf.issue, ∃ message ∈ complaints, issue = .syntaxAt message token ∨
    ∃ middle : Stream, middle.Follows stream ∧ leaf.left.Follows middle ∧
      issue = .syntaxAt message middle.peek

variable {token : Token} {stream left : Stream}

theorem reportsFrom_silent (statement : Option Statement) (left : Stream) :
    ReportsFrom token stream ⟨statement, none, left⟩ := nofun

theorem reportsFrom_fail {message : String} (known : message ∈ complaints)
    (follows : left.Follows stream) : (fail message left).ReportsFrom token stream := by
  rintro _ ⟨⟩
  exact ⟨message, known, .inr ⟨left, follows, follows_skip _ _, rfl⟩⟩

theorem issue_nickname {issue : Diagnostic} (reported : (nickname stream).2.1 = some issue) :
    issue = .syntaxAt "Expected participant alias" (nickname stream).2.2.peek := by
  unfold nickname at reported ⊢
  by_cases word : stream.atWord "as" = true
  · rw [if_pos word] at reported ⊢
    dsimp only at reported ⊢
    cases found : (stream.drop 1).name? with
    | none =>
      rw [found] at reported
      exact (Option.some.inj reported).symm
    | some name =>
      rw [found] at reported
      cases reported
  · rw [if_neg word] at reported
    cases reported

theorem reportsFrom_participant (role : Role) :
    (participant role token stream).ReportsFrom token stream := by
  unfold participant
  split
  · exact reportsFrom_fail (by decide) (.refl stream)
  · rename_i left found
    intro issue reported
    have follows := (follows_nickname left).trans (follows_name? found)
    exact ⟨_, by decide, .inr ⟨_, follows, follows_skip _ _, issue_nickname reported⟩⟩

/-- A token that names nobody is the only one that is reported after it has been read. -/
theorem reportsFrom_message : (message token stream).ReportsFrom token stream := by
  unfold message
  split
  · split
    · dsimp only
      split
      · exact reportsFrom_fail (by decide) (follows_drop _ _)
      · exact reportsFrom_silent _ _
    · exact reportsFrom_fail (by decide) (.refl stream)
  · rintro _ ⟨⟩
    exact ⟨_, by decide, .inl rfl⟩

theorem reportsFrom_onName {missing : String} (known : missing ∈ complaints)
    (statement : String → Span → Statement) :
    (onName missing statement token stream).ReportsFrom token stream := by
  unfold onName
  split
  · exact reportsFrom_fail known (.refl stream)
  · exact reportsFrom_silent _ _

theorem reportsFrom_note : (note token stream).ReportsFrom token stream := by
  have placed := follows_placement stream
  unfold note
  split
  · rename_i same
    rw [same] at placed
    exact reportsFrom_fail (by decide) placed
  · rename_i left same
    rw [same] at placed
    split
    · exact reportsFrom_silent _ _
    · split
      · have body := follows_noteBody left
        split
        · rename_i same
          rw [same] at body
          exact reportsFrom_fail (by decide) (body.trans placed)
        · exact reportsFrom_silent _ _
      · exact reportsFrom_fail (by decide) placed

end Leaf

theorem Parsing.reportsFrom_leaf (token : Token) (stream : Stream) :
    (leaf token stream).ReportsFrom token stream := by
  unfold leaf
  split
  · exact Leaf.reportsFrom_participant _
  · exact Leaf.reportsFrom_silent _ _
  · exact Leaf.reportsFrom_note
  · exact Leaf.reportsFrom_onName (by decide) .activation
  · exact Leaf.reportsFrom_onName (by decide) .deactivation
  · exact Leaf.reportsFrom_silent _ _
  · exact Leaf.reportsFrom_silent _ _
  · exact Leaf.reportsFrom_message

/-! ## Reports by place -/

def Stream.tokenAt (tokens : List Token) (cursor : Nat) : Token :=
  tokens[cursor]?.getD (endAfter tokens.getLast?)

theorem Stream.Follows.peek_eq_tokenAt {tokens : List Token} {stream : Stream}
    (follows : stream.Follows (.ofTokens tokens)) : stream.peek = tokenAt tokens stream.cursor :=
  follows.peekAt_eq 0

open Lifeline.Stream (tokenAt endPlace)

/-- Whether reports, newest first, are about tokens up to a cursor, each about one that does not stand
before that of the next. -/
inductive Reported (tokens : List Token) : Nat → List Diagnostic → Prop where
  | nil {cursor : Nat} : Reported tokens cursor []
  | cons {place cursor : Nat} {message : String} {issues : List Diagnostic} : place ≤ cursor →
      Reported tokens place issues →
      Reported tokens cursor (.syntaxAt message (tokenAt tokens place) :: issues)

namespace Reported

variable {tokens : List Token} {cursor further : Nat} {issues : List Diagnostic}

theorem mono (reported : Reported tokens cursor issues) (later : cursor ≤ further) :
    Reported tokens further issues := by
  cases reported with
  | nil => exact .nil
  | cons earlier reported => exact .cons (Nat.le_trans earlier later) reported

theorem here (reported : Reported tokens cursor issues) (message : String) :
    Reported tokens cursor (.syntaxAt message (tokenAt tokens cursor) :: issues) :=
  .cons (Nat.le_refl cursor) reported

theorem exists_place (reported : Reported tokens cursor issues) :
    ∀ issue ∈ issues, ∃ place ≤ cursor, issue = .syntaxAt issue.message (tokenAt tokens place) := by
  induction reported with
  | nil => simp
  | cons earlier _ ih =>
    intro issue member
    rcases List.mem_cons.1 member with rfl | member
    · exact ⟨_, earlier, rfl⟩
    · obtain ⟨place, before, same⟩ := ih issue member
      exact ⟨place, Nat.le_trans before earlier, same⟩

theorem exists_places (reported : Reported tokens cursor issues) :
    ∃ places : List Nat, places.Pairwise (· ≤ ·) ∧ (∀ place ∈ places, place ≤ cursor) ∧
      issues.reverse.map Diagnostic.token = places.map fun place => some (tokenAt tokens place) := by
  induction reported with
  | nil => exact ⟨[], by simp⟩
  | @cons place cursor message issues earlier _ ih =>
    obtain ⟨places, sorted, bounded, same⟩ := ih
    refine ⟨places ++ [place], ?_, ?_, ?_⟩
    · simpa [List.pairwise_append, sorted] using bounded
    · intro other member
      rcases List.mem_append.1 member with before | last
      · exact Nat.le_trans (bounded other before) earlier
      · exact List.mem_singleton.1 last ▸ earlier
    · simp [same, Diagnostic.syntaxAt]

theorem pairwise (reported : Reported tokens cursor issues)
    (sorted : ∀ first second, first ≤ second → second ≤ cursor →
      (tokenAt tokens first).place.NotAfter (tokenAt tokens second).place) :
    issues.Pairwise fun newer older => older.place.NotAfter newer.place := by
  induction reported with
  | nil => exact .nil
  | @cons place cursor message issues earlier reported ih =>
    constructor
    · intro issue member
      obtain ⟨before, notLater, same⟩ := reported.exists_place issue member
      rw [same]
      exact sorted before place notLater earlier
    · exact ih fun first second order bound => sorted first second order (Nat.le_trans bound earlier)

end Reported

/-! ## The machine -/

namespace Parsing

variable {tokens : List Token} {parsing : Parsing} {cursor : Nat}

/-- Whether all that has been reported is about tokens up to the one that the reading stands before. -/
structure Reports (tokens : List Token) (parsing : Parsing) : Prop where
  follows : parsing.stream.Follows (.ofTokens tokens)
  reported : Reported tokens parsing.stream.cursor parsing.issues

theorem reported_abandon (reached : Nat) (frames : List Frame) (statements : List Statement)
    {issues : List Diagnostic} (reported : Reported tokens cursor issues) :
    Reported tokens cursor (abandon (tokenAt tokens cursor) reached frames statements issues).2 := by
  induction frames generalizing statements issues with
  | nil => exact reported
  | cons frame frames ih => exact ih _ (reported.here _)

theorem reported_finish (opened : Token) (reached : Nat)
    (reported : Reported tokens cursor parsing.issues) :
    Reported tokens cursor (parsing.finish opened (tokenAt tokens cursor) reached).issues := by
  have unclosed := reported_abandon reached parsing.frames parsing.statements reported
  unfold finish
  dsimp only
  split
  · exact unclosed
  · exact unclosed.here _

theorem reports_accept (follows : parsing.stream.Follows (.ofTokens tokens))
    (reported : Reported tokens cursor parsing.issues) (later : cursor ≤ parsing.stream.cursor) :
    (parsing.accept (leaf (tokenAt tokens cursor) parsing.stream)).Reports tokens := by
  have reports := reportsFrom_leaf (tokenAt tokens cursor) parsing.stream
  have left := follows_leaf (tokenAt tokens cursor) parsing.stream
  have behind := Nat.le_trans later left.cursor_le
  refine ⟨left.trans follows, ?_⟩
  unfold accept
  cases issue : (leaf (tokenAt tokens cursor) parsing.stream).issue with
  | none => exact reported.mono behind
  | some issue' =>
    obtain ⟨message, -, rfl | ⟨middle, goesOn, further, rfl⟩⟩ := reports issue' issue
    · exact (reported.here message).mono behind
    · rw [(goesOn.trans follows).peek_eq_tokenAt]
      exact .cons further.cursor_le (reported.mono (Nat.le_trans later goesOn.cursor_le))

theorem reports_inside (opened : Token) (reached : Nat)
    (follows : parsing.stream.Follows (.ofTokens tokens))
    (reported : Reported tokens cursor parsing.issues) (later : cursor ≤ parsing.stream.cursor) :
    (parsing.inside opened (tokenAt tokens cursor) reached).Reports tokens := by
  have leaf := reports_accept follows reported later
  have labelled := Stream.follows_skip parsing.stream Stream.labelled
  have behind := Nat.le_trans later labelled.cursor_le
  unfold Parsing.inside
  split
  · exact ⟨follows, (reported_finish opened reached reported).mono later⟩
  · refine ⟨labelled.trans follows, ?_⟩
    unfold push
    dsimp only
    split
    · exact (reported.here _).mono behind
    · exact reported.mono behind
  · exact ⟨follows, reported.mono later⟩
  · split
    · exact ⟨labelled.trans follows, reported.mono behind⟩
    · exact leaf
  · exact leaf

theorem Reports.step (reports : parsing.Reports tokens) {token : Token} {rest : List Token}
    (ahead : parsing.stream.ahead = token :: rest) : (parsing.step token).Reports tokens := by
  obtain ⟨follows, reported⟩ := reports
  have shown : token = tokenAt tokens parsing.stream.cursor := by
    rw [← Stream.peek_of_ahead ahead, follows.peek_eq_tokenAt]
  subst shown
  have read := Stream.follows_drop parsing.stream 1
  cases inside : parsing.diagram with
  | some opened =>
    rw [step_inside inside]
    exact reports_inside opened _ (read.trans follows) reported read.cursor_le
  | none =>
    rw [step_outside inside, outside]
    split
    · exact ⟨read.trans follows, reported.mono read.cursor_le⟩
    · exact ⟨read.trans follows, (reported.here _).mono read.cursor_le⟩

theorem Reports.skipSeparators (reports : parsing.Reports tokens) :
    parsing.skipSeparators.Reports tokens := by
  have passed := Stream.follows_skip parsing.stream Stream.separators
  exact ⟨passed.trans reports.follows, reports.reported.mono passed.cursor_le⟩

theorem Reports.run (reports : parsing.Reports tokens) : parsing.run.Reports tokens :=
  run_keeps (fun _ reports => reports.skipSeparators) (fun _ _ _ reports => reports.step) reports

theorem Reports.complete (reports : parsing.Reports tokens) (nothing : parsing.stream.ahead = []) :
    Reported tokens (endPlace tokens) parsing.complete.issues := by
  obtain ⟨follows, reported⟩ := reports
  rw [← follows.cursor_eq_endPlace nothing]
  unfold Parsing.complete
  split
  · exact reported
  · rw [follows.peek_eq_tokenAt]
    exact reported_finish _ _ reported

end Parsing

theorem reported_parse (tokens : List Token) :
    Reported tokens (endPlace tokens) (parse tokens).issues.reverse := by
  have start : (Parsing.start (.ofTokens tokens)).Reports tokens := ⟨.refl _, .nil⟩
  have reported := start.run.complete (Parsing.stream_run _).2
  rw [parse]
  simpa using reported

/-! ## Sources -/

theorem Stream.endPlace_lt_tokenize (source : String) :
    endPlace (tokenize source).tokens < (tokenize source).tokens.length := by
  refine List.findIdx_lt_length_of_exists ?_
  rw [Token.tokens_tokenize]
  exact ⟨_, List.mem_append_right _ List.mem_cons_self, rfl⟩

theorem Stream.getElem?_eq_tokenAt {source : String} {place : Nat}
    (bound : place ≤ endPlace (tokenize source).tokens) :
    (tokenize source).tokens[place]? = some (tokenAt (tokenize source).tokens place) := by
  have inside := Nat.lt_of_le_of_lt bound (endPlace_lt_tokenize source)
  rw [tokenAt, List.getElem?_eq_getElem inside]
  rfl

theorem Stream.notAfter_tokenAt {source : String} {first second : Nat} (order : first ≤ second)
    (bound : second ≤ endPlace (tokenize source).tokens) :
    (tokenAt (tokenize source).tokens first).place.NotAfter
      (tokenAt (tokenize source).tokens second).place := by
  rcases Nat.lt_or_eq_of_le order with before | rfl
  · have one := getElem?_eq_tokenAt (Nat.le_trans order bound)
    have two := getElem?_eq_tokenAt bound
    obtain ⟨inside, one⟩ := List.getElem?_eq_some_iff.1 one
    obtain ⟨inside', two⟩ := List.getElem?_eq_some_iff.1 two
    rw [← one, ← two]
    have sorted := Token.pairwise_locate .start (Token.lexemes true source.toList)
    exact List.pairwise_iff_getElem.1 sorted first second inside inside' before
  · exact .refl _

def Analysis.syntaxIssues (analysis : Analysis) : List Diagnostic :=
  analysis.issues.filter (·.kind == .syntactic)

theorem syntaxIssues_analyze (source : String) :
    (analyze source).syntaxIssues = (parse (tokenize source).tokens).issues := by
  have lexical : ∀ issue ∈ (tokenize source).issues, ¬(issue.kind == .syntactic) = true := by
    intro issue member
    rw [issues_tokenize_eq] at member
    obtain ⟨token, -, reported⟩ := List.mem_filterMap.1 member
    rw [Token.unterminated?] at reported
    split at reported
    · cases reported
      exact Bool.false_ne_true
    · cases reported
  have syntactic : ∀ issue ∈ (parse (tokenize source).tokens).issues,
      (issue.kind == .syntactic) = true := by
    intro issue member
    obtain ⟨place, -, same⟩ :=
      (reported_parse _).exists_place issue (List.mem_reverse.2 member)
    rw [same]
    rfl
  rw [Analysis.syntaxIssues, analyze, List.filter_append, List.filter_eq_nil_iff.2 lexical,
    List.filter_eq_self.2 syntactic, List.nil_append]

/-- What is wrong with the sentences of a source is reported in the order of its tokens, the end mark
among them: every report carries one of them and stands where it does, none is about a token before that
of an earlier report, and so none stands before an earlier one or beyond the end of the source. -/
theorem issues_in_order (source : String) :
    (∀ issue ∈ (analyze source).syntaxIssues, ∃ token ∈ (tokenize source).tokens,
      issue.token = some token ∧ issue.place = token.place) ∧
    (∃ places : List Nat, places.Pairwise (· ≤ ·) ∧
      (analyze source).syntaxIssues.map Diagnostic.token =
        places.map ((tokenize source).tokens[·]?)) ∧
    ((analyze source).syntaxIssues.Pairwise fun first second =>
      first.place.NotAfter second.place) ∧
    ∀ issue ∈ (analyze source).syntaxIssues, issue.position ≤ source.utf8ByteSize := by
  have reported := reported_parse (tokenize source).tokens
  rw [← syntaxIssues_analyze] at reported
  have carried : ∀ issue ∈ (analyze source).syntaxIssues, ∃ token ∈ (tokenize source).tokens,
      issue.token = some token ∧ issue.place = token.place := by
    intro issue member
    obtain ⟨place, bound, same⟩ := reported.exists_place issue (List.mem_reverse.2 member)
    have inside := List.mem_of_getElem? (Stream.getElem?_eq_tokenAt bound)
    exact ⟨_, inside, same ▸ rfl, same ▸ rfl⟩
  refine ⟨carried, ?_, ?_, ?_⟩
  · obtain ⟨places, sorted, bounded, same⟩ := reported.exists_places
    refine ⟨places, sorted, ?_⟩
    rw [List.reverse_reverse] at same
    rw [same]
    apply List.map_congr_left
    intro place member
    exact (Stream.getElem?_eq_tokenAt (bounded place member)).symm
  · apply List.pairwise_reverse.1
    apply reported.pairwise
    intro first second order bound
    exact Stream.notAfter_tokenAt order bound
  · intro issue member
    obtain ⟨token, inside, -, same⟩ := carried issue member
    have stop := (Token.ordered_tokenize source).2 token inside
    calc issue.position = token.offset := congrArg Position.offset same
      _ ≤ token.stop := token.offset_le_stop
      _ ≤ source.utf8ByteSize := stop

/-- What is open at the end of a diagram is reported behind all that is wrong inside it, and what stands
behind the diagram after that. -/
theorem issues_in_order_unclosed :
    let source := "@startuml\ngroup\nalt a\nA ->\nelse\n'\n-> B\n@enduml x\n@startuml\n loop"
    (analyze source).syntaxIssues.map Diagnostic.message = ["Unsupported block: group",
      "Expected message receiver", "Expected message sender", "Expected end for alt block",
      "Expected end for group block", "Unexpected token: x", "Expected end for loop block",
      "Expected @enduml"] ∧
    (analyze source).syntaxIssues.Pairwise fun first second =>
      first.place.NotAfter second.place := by
  intro source
  refine ⟨by decide +kernel, ?_⟩
  exact (issues_in_order source).2.2.1

end Lifeline
