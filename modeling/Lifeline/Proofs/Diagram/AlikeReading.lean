import Lifeline.Proofs.Diagram.AlikeLeaf
import Lifeline.Proofs.Diagram.Source
import Mathlib.Data.List.Forall2

/-! Readings that go alike.

Two machines with streams that read alike take the same steps, but for separators that they pass over.
So tokens that read alike write the same document, up to places, and the same is wrong with them. -/

set_option autoImplicit false

namespace Lifeline

/-! ## Blocks -/

structure Frame.Alike (first second : Frame) : Prop where
  block : first.block = second.block
  opener : first.opener.text = second.opener.text
  branches : first.branches.map Branch.bare = second.branches.map Branch.bare
  label : first.label = second.label
  before : first.before.map Statement.bare = second.before.map Statement.bare

theorem Block.word_eq (block : Block) {opener opener' : Token} (same : opener.text = opener'.text) :
    block.word opener = block.word opener' := by
  cases block <;> first | rfl | exact congrArg Text.asciiLower same

theorem Block.unsupported_eq (block : Block) {opener opener' : Token}
    (same : opener.text = opener'.text) : block.unsupported opener = block.unsupported opener' :=
  congrArg ("Unsupported block: " ++ ·) (block.word_eq same)

namespace Frame.Alike

variable {first second : Frame} {inner inner' : List Statement}

theorem bare_branch (alike : first.Alike second)
    (same : inner.map Statement.bare = inner'.map Statement.bare) (reached reached' : Nat) :
    (first.branch inner reached).bare = (second.branch inner' reached').bare := by
  simp only [Frame.branch, Branch.bare, alike.label, bareStatements_eq_map, List.map_reverse, same]

theorem bare_allBranches (alike : first.Alike second)
    (same : inner.map Statement.bare = inner'.map Statement.bare) (reached reached' : Nat) :
    (first.allBranches inner reached).map Branch.bare =
      (second.allBranches inner' reached').map Branch.bare := by
  simp only [Frame.allBranches, List.map_reverse, List.map_cons, alike.branches,
    alike.bare_branch same reached reached']

theorem bare_close (alike : first.Alike second)
    (same : inner.map Statement.bare = inner'.map Statement.bare)
    (branchReached reached branchReached' reached' : Nat) :
    (first.close inner branchReached reached).bare =
      (second.close inner' branchReached' reached').bare := by
  have branches := alike.bare_allBranches same branchReached branchReached'
  have condition : ((first.allBranches inner branchReached).head?.map Branch.condition) =
      ((second.allBranches inner' branchReached').head?.map Branch.condition) := by
    have heads := congrArg List.head? branches
    rw [List.head?_map, List.head?_map] at heads
    have conditions := congrArg (Option.map Branch.condition) heads
    simpa [Option.map_map, Function.comp_def] using conditions
  have statements : bareStatements inner.reverse = bareStatements inner'.reverse := by
    simp only [bareStatements_eq_map, List.map_reverse, same]
  unfold Frame.close
  rw [← alike.block]
  cases first.block with
  | alt => simp only [Statement.bare, bareBranches_eq_map, branches, condition]
  | par => simp only [Statement.bare, bareBranches_eq_map, branches]
  | loop | opt => simp only [Statement.bare, alike.label, statements]
  | breakOut | critical | group =>
    exact congrArg (Statement.error · .none) (Block.unsupported_eq _ alike.opener)

theorem content_unclosed (alike : first.Alike second) (current current' : Token) :
    (first.unclosed current).content = (second.unclosed current').content := by
  simp only [Diagnostic.content, Frame.unclosed, Diagnostic.syntaxAt, alike.block,
    Block.word_eq _ alike.opener]

end Frame.Alike

/-! ## The machine -/

namespace Parsing

/-- Whether two machines have the same in hand, and what is left for them reads alike. -/
structure Alike (free : Bool) (first second : Parsing) : Prop where
  stream : first.stream.Alike free second.stream
  diagram : first.diagram.isSome = second.diagram.isSome
  frames : List.Forall₂ Frame.Alike first.frames second.frames
  statements : first.statements.map Statement.bare = second.statements.map Statement.bare
  diagrams : first.diagrams.map Diagram.bare = second.diagrams.map Diagram.bare
  issues : first.issues.map Diagnostic.content = second.issues.map Diagnostic.content

variable {free : Bool} {first second : Parsing} {token token' : Token}

theorem Alike.loosen (alike : first.Alike free second) : first.Alike true second :=
  { alike with stream := alike.stream.loosen }

theorem alike_accept (alike : first.Alike free second) {leaf leaf' : Leaf} (read : leaf.Alike leaf') :
    (first.accept leaf).Alike false (second.accept leaf') where
  stream := read.left
  diagram := alike.diagram
  frames := alike.frames
  statements := by
    have same : leaf.statement.toList.map Statement.bare =
        leaf'.statement.toList.map Statement.bare := by
      rw [← Option.toList_map, ← Option.toList_map, read.statement]
    simp only [accept, List.map_append, same, alike.statements]
  diagrams := alike.diagrams
  issues := by
    have same : leaf.issue.toList.map Diagnostic.content =
        leaf'.issue.toList.map Diagnostic.content := by
      rw [← Option.toList_map, ← Option.toList_map, read.issue]
    simp only [accept, List.map_append, same, alike.issues]

theorem alike_push (alike : first.Alike false second) (block : Block)
    (same : token.text = token'.text) :
    (first.push block token).Alike false (second.push block token') where
  stream := (Stream.alike_label alike.stream).2
  diagram := alike.diagram
  frames := by
    refine .cons ⟨rfl, same, rfl, ?_, alike.statements⟩ alike.frames
    exact (Stream.alike_label alike.stream).1
  statements := rfl
  diagrams := alike.diagrams
  issues := by
    unfold push
    dsimp only
    rw [block.unsupported_eq same]
    split
    · rw [List.map_cons, List.map_cons, alike.issues]
      rfl
    · exact alike.issues

theorem alike_split (alike : first.Alike false second) {frame frame' : Frame}
    {frames frames' : List Frame} (inner : frame.Alike frame')
    (outer : List.Forall₂ Frame.Alike frames frames') (reached reached' : Nat) :
    (first.split frame frames token reached).Alike false
      (second.split frame' frames' token' reached') where
  stream := (Stream.alike_label alike.stream).2
  diagram := alike.diagram
  frames := by
    refine .cons ⟨inner.block, inner.opener, ?_, ?_, inner.before⟩ outer
    · simp only [List.map_cons, inner.branches,
        inner.bare_branch alike.statements reached reached']
    · exact (Stream.alike_label alike.stream).1
  statements := rfl
  diagrams := alike.diagrams
  issues := alike.issues

theorem alike_pop (alike : first.Alike false second) {frame frame' : Frame}
    {frames frames' : List Frame} (inner : frame.Alike frame')
    (outer : List.Forall₂ Frame.Alike frames frames') (reached reached' : Nat) :
    (first.pop frame frames reached).Alike false (second.pop frame' frames' reached') where
  stream := alike.stream
  diagram := alike.diagram
  frames := outer
  statements := by
    simp only [pop, List.map_cons, inner.before, inner.bare_close alike.statements reached
      first.stream.reached reached' second.stream.reached]
  diagrams := alike.diagrams
  issues := alike.issues

theorem abandon_alike (token token' : Token) (reached reached' : Nat) {frames frames' : List Frame}
    {statements statements' : List Statement} {issues issues' : List Diagnostic}
    (alike : List.Forall₂ Frame.Alike frames frames')
    (same : statements.map Statement.bare = statements'.map Statement.bare)
    (issues_eq : issues.map Diagnostic.content = issues'.map Diagnostic.content) :
    (abandon token reached frames statements issues).1.map Statement.bare =
        (abandon token' reached' frames' statements' issues').1.map Statement.bare ∧
      (abandon token reached frames statements issues).2.map Diagnostic.content =
        (abandon token' reached' frames' statements' issues').2.map Diagnostic.content := by
  induction alike generalizing statements statements' issues issues' with
  | nil => exact ⟨same, issues_eq⟩
  | cons inner _ ih =>
    refine ih ?_ ?_
    · rw [List.map_cons, List.map_cons, inner.before,
        inner.bare_close same reached reached reached' reached']
    · rw [List.map_cons, List.map_cons, issues_eq, inner.content_unclosed token token']

theorem alike_finish (alike : first.Alike free second) (opened opened' : Token)
    (kind : token.kind = token'.kind) (reached reached' : Nat) :
    (first.finish opened token reached).Alike free (second.finish opened' token' reached') := by
  obtain ⟨statements, issues⟩ := abandon_alike token token' reached reached'
    alike.frames alike.statements alike.issues
  refine ⟨alike.stream, rfl, .nil, rfl, ?_, ?_⟩
  · simp only [finish, List.map_cons, Diagram.bare, bareStatements_eq_map, List.map_reverse,
      statements, alike.diagrams, kind]
  · simp only [finish, kind]
    split
    · exact issues
    · simp only [List.map_cons, issues]
      rfl

theorem alike_leaf {stream stream' : Stream} (alike : stream.Alike false stream')
    (agrees : token.Agrees token') : (leaf token stream).Alike (leaf token' stream') := by
  unfold leaf
  rw [← agrees.1]
  split
  · exact Leaf.alike_participant _ alike
  · exact Leaf.alike_title alike
  · exact Leaf.alike_note alike
  · exact Leaf.alike_onName _ .activation (fun _ _ => rfl) alike
  · exact Leaf.alike_onName _ .deactivation (fun _ _ => rfl) alike
  · exact Leaf.alike_autonumber alike
  · exact ⟨rfl, rfl, Stream.alike_skipLine alike⟩
  · exact Leaf.alike_message agrees alike

theorem alike_inside (alike : first.Alike token.kind.rests second) (agrees : token.Agrees token')
    (solid : token.kind.isSeparator = false) (opened opened' : Token) (reached reached' : Nat) :
    (first.inside opened token reached).Alike true (second.inside opened' token' reached') := by
  by_cases endUml : token.kind = .endUml
  · have closes {parsing : Parsing} {opened token : Token} {reached : Nat}
        (endUml : token.kind = .endUml) :
        parsing.inside opened token reached = parsing.finish opened token reached := by
      rw [inside, endUml]
    rw [closes endUml, closes (agrees.1 ▸ endUml)]
    exact (alike_finish alike opened opened' agrees.1 reached reached').loosen
  rw [Token.Kind.rests_of_isSeparator solid endUml] at alike
  have leaf := (alike_accept alike (alike_leaf alike.stream agrees)).loosen
  by_cases starts : startsLeaf token.kind = true
  · rwa [inside_of_startsLeaf _ _ _ starts, inside_of_startsLeaf _ _ _ (agrees.1 ▸ starts)]
  -- What is left are the tokens that open, split and close blocks.
  have frames := alike.frames
  unfold inside
  rw [← agrees.1]
  cases kind : token.kind <;> rw [kind] at endUml solid starts <;>
    first | exact absurd rfl starts | exact absurd rfl endUml | cases solid
  · exact (alike_push alike _ (agrees.2 (by rw [kind]; rfl))).loosen
  all_goals
    cases open_first : first.frames with
    | nil =>
      rw [open_first] at frames
      rwa [List.forall₂_nil_left_iff.1 frames]
    | cons frame outer =>
      rw [open_first] at frames
      obtain ⟨frame', outer', inner, rest, open_second⟩ := List.forall₂_cons_left_iff.1 frames
      rw [open_second]
      dsimp only
      first
      | exact (alike_pop alike inner rest reached reached').loosen
      | rw [← inner.block]
        split
        · exact (alike_split alike inner rest reached reached').loosen
        · exact leaf

theorem alike_outside (alike : first.Alike free second) (agrees : token.Agrees token')
    (solid : token.kind.isSeparator = false) :
    (first.outside token).Alike free (second.outside token') := by
  unfold outside
  rw [← agrees.1]
  split
  · exact { alike with diagram := rfl }
  · refine { alike with issues := ?_ }
    rw [report, report, List.map_cons, List.map_cons, alike.issues, agrees.2 solid]
    rfl

theorem alike_step (alike : first.Alike false second) {rest rest' : List Token}
    (ahead : first.stream.ahead = token :: rest) (ahead' : second.stream.ahead = token' :: rest')
    (agrees : token.Agrees token') (solid : token.kind.isSeparator = false)
    (later : Token.Alike token.kind.rests rest rest') :
    (first.step token).Alike true (second.step token') := by
  have next : first.advance.Alike token.kind.rests second.advance := by
    refine { alike with
      stream := alike.stream.follow (Stream.follows_drop _ _) (Stream.follows_drop _ _) ?_ }
    rwa [Stream.ahead_drop_one ahead, Stream.ahead_drop_one ahead']
  have diagram := alike.diagram
  cases inside : first.diagram with
  | none =>
    rw [inside] at diagram
    have outside : second.diagram = none := by simpa using diagram.symm
    rw [step_outside inside, step_outside outside]
    exact (alike_outside next agrees solid).loosen
  | some opened =>
    rw [inside] at diagram
    obtain ⟨opened', inside'⟩ := Option.isSome_iff_exists.1 diagram.symm
    rw [step_inside inside, step_inside inside']
    exact alike_inside next agrees solid _ _ _ _

theorem alike_skipSeparators (alike : first.Alike free second) :
    first.skipSeparators.Alike false second.skipSeparators :=
  { alike with stream := Stream.alike_skipSeparators alike.stream }

theorem alike_run (alike : first.Alike free second) : first.run.Alike false second.run := by
  have passed := alike_skipSeparators alike
  induction first using run_induct generalizing second free with
  | done first nothing =>
    obtain ⟨-, nothing'⟩ | ⟨_, _, _, _, ahead, -⟩ := passed.stream.ahead.cases_head
    · rw [run_of_nil nothing, run_of_nil nothing']
      exact passed
    · rw [nothing] at ahead
      cases ahead
  | round first token rest ahead ih =>
    obtain ⟨nothing, -⟩ | ⟨_, _, token', rest', head, ahead', agrees, -, later⟩ :=
      passed.stream.ahead.cases_head
    · rw [ahead] at nothing
      cases nothing
    · cases ahead.symm.trans head
      have solid := first.stream.head?_skip Stream.separators token (congrArg List.head? ahead)
      have stepped := alike_step passed ahead ahead' agrees solid later
      rw [run_of_cons ahead, run_of_cons ahead']
      exact ih stepped (alike_skipSeparators stepped)

theorem alike_complete (alike : first.Alike false second) :
    first.complete.Alike false second.complete := by
  have diagram := alike.diagram
  unfold complete
  cases inside : first.diagram with
  | none =>
    rw [inside] at diagram
    have outside : second.diagram = none := by simpa using diagram.symm
    rw [outside]
    exact alike
  | some opened =>
    rw [inside] at diagram
    obtain ⟨opened', inside'⟩ := Option.isSome_iff_exists.1 diagram.symm
    rw [inside']
    exact alike_finish alike _ _ (Stream.agrees_peek alike.stream).1 _ _

end Parsing

/-! ## Sources -/

theorem Token.Alike.unterminated {free : Bool} {tokens tokens' : List Token}
    (alike : Alike free tokens tokens') :
    (tokens.filterMap unterminated?).map Diagnostic.content =
      (tokens'.filterMap unterminated?).map Diagnostic.content := by
  have silent {token : Token} (separator : token.kind.isSeparator = true) :
      unterminated? token = none := by
    rw [unterminated?, if_neg]
    intro opens
    rw [opens.1] at separator
    cases separator
  induction alike with
  | nil => rfl
  | @both _ first second rest rest' agrees _ _ ih =>
    by_cases separator : first.kind.isSeparator = true
    · rwa [List.filterMap_cons_none (silent separator),
        List.filterMap_cons_none (silent (agrees.isSeparator.trans separator))]
    · have opens : first.OpensString ↔ second.OpensString := by
        rw [OpensString, OpensString, agrees.1, agrees.2 (by simpa using separator)]
      rw [List.filterMap_cons, List.filterMap_cons, unterminated?, unterminated?]
      by_cases one : first.OpensString
      · rw [if_pos one, if_pos (opens.1 one), List.map_cons, List.map_cons, ih]
        rfl
      · rwa [if_neg one, if_neg (one ∘ opens.2)]
  | left separator _ ih => rwa [List.filterMap_cons_none (silent separator)]
  | right separator _ ih => rwa [List.filterMap_cons_none (silent separator)]

theorem parse_alike {free : Bool} {tokens tokens' : List Token}
    (alike : (Stream.ofTokens tokens).Alike free (Stream.ofTokens tokens')) :
    (parse tokens).document.bare = (parse tokens').document.bare ∧
      (parse tokens).issues.map Diagnostic.content =
        (parse tokens').issues.map Diagnostic.content := by
  have start : (Parsing.start (.ofTokens tokens)).Alike free (.start (.ofTokens tokens')) :=
    ⟨alike, rfl, .nil, rfl, rfl, rfl⟩
  have read := Parsing.alike_complete (Parsing.alike_run start)
  unfold parse
  simp only [Document.bare, List.map_reverse, read.diagrams, read.issues, and_self]

/-- Whether two sources write the same document, up to places, and the same is wrong with them. -/
structure SameReading (first second : String) : Prop where
  document : (Document.ofSource first).bare = (Document.ofSource second).bare
  issues : (analyze first).issues.map Diagnostic.content =
    (analyze second).issues.map Diagnostic.content

namespace SameReading

variable {first second third : String}

theorem symm (same : SameReading first second) : SameReading second first :=
  ⟨same.document.symm, same.issues.symm⟩

theorem trans (same : SameReading first second) (same' : SameReading second third) :
    SameReading first third :=
  ⟨same.document.trans same'.document, same.issues.trans same'.issues⟩

theorem clean (same : SameReading first second) (clean : (analyze first).issues = []) :
    (analyze second).issues = [] := by
  have issues := same.issues
  rwa [clean, List.map_nil, eq_comm, List.map_eq_nil_iff] at issues

theorem project (same : SameReading first second) :
    (Document.ofSource first).project = (Document.ofSource second).project :=
  Document.project_eq_of_bare same.document

end SameReading

theorem sameReading_of_alike {source source' : String}
    (alike : Token.Alike true (Token.ofText source.toList) (Token.ofText source'.toList)) :
    SameReading source source' := by
  obtain ⟨line, column, offset, eof⟩ := eof_ofTokens source
  obtain ⟨line', column', offset', eof'⟩ := eof_ofTokens source'
  have stream : (Stream.ofTokens (tokenize source).tokens).Alike true
      (Stream.ofTokens (tokenize source').tokens) := by
    constructor
    · rwa [ahead_ofTokens, ahead_ofTokens]
    · rw [eof, eof']
      exact ⟨rfl, fun _ => rfl⟩
  obtain ⟨document, issues⟩ := parse_alike stream
  refine ⟨document, ?_⟩
  rw [analyze, analyze]
  dsimp only
  rw [List.map_append, List.map_append, issues, issues_tokenize_eq, issues_tokenize_eq,
    alike.unterminated]

end Lifeline
