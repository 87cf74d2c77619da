import Lifeline.Proofs.Diagram.Clean
import Lifeline.Proofs.Diagram.Reports
import Mathlib.Data.List.Perm.Subperm

/-! What can be relied on in a document, whatever its source.

What has been read lies in the statements of the innermost block, in the blocks that are open and in the
diagrams that are closed. A block that is closed becomes one node above those that it holds, and an error
without any if it is not kept; but then it has been reported when it was opened. So the nodes that are held
and the blocks that will become errors are what the reports have to answer for, in every state of a
reading. -/

set_option autoImplicit false

namespace Lifeline

open List (Subperm Perm)

/-! ## Nodes -/

/-- Whether a statement is as statements are meant to be: branches are there, and what is said of the first
branch or of the arrow in two places is the same in both. -/
def Statement.WellFormed : Statement → Prop
  | .alternative condition branches _ => branches.head?.map Branch.condition = some condition
  | .parallel branches _ => branches ≠ []
  | .message _ _ _ arrow isAsync isReturn _ => ∃ way, Token.arrowClass? arrow = some way ∧
      (isAsync = true ↔ way = .async) ∧ (isReturn = true ↔ way = .reply)
  | _ => True

def Node.WellFormed (node : Node) : Prop := ∀ statement ∈ node.statement, statement.WellFormed

def Node.isError (node : Node) : Bool := node.kind == .error

def Statement.node (statement : Statement) : Node := ⟨statement.kind, some statement⟩

theorem Statement.wellFormed_node {statement : Statement} (wellFormed : statement.WellFormed) :
    statement.node.WellFormed := by
  rintro _ ⟨⟩
  exact wellFormed

theorem Node.wellFormed_of_subset {nodes held : List Node} {kind : NodeKind}
    (inside : nodes ⊆ ⟨kind, none⟩ :: held) (wellFormed : ∀ node ∈ held, node.WellFormed) :
    ∀ node ∈ nodes, node.WellFormed := by
  intro node member
  rcases List.mem_cons.1 (inside member) with rfl | member
  · exact nofun
  · exact wellFormed node member

theorem nodesOfStatements_eq_flatMap (statements : List Statement) :
    nodesOfStatements statements = statements.flatMap Statement.nodes := by
  induction statements with
  | nil => rfl
  | cons statement rest ih => rw [nodesOfStatements, ih, List.flatMap_cons]

theorem nodesOfBranches_eq_flatMap (branches : List Branch) :
    nodesOfBranches branches = branches.flatMap Branch.nodes := by
  induction branches with
  | nil => rfl
  | cons branch rest ih => rw [nodesOfBranches, ih, List.flatMap_cons]

theorem nodesOfStatements_reverse (statements : List Statement) :
    (nodesOfStatements statements.reverse).Perm (nodesOfStatements statements) := by
  rw [nodesOfStatements_eq_flatMap, nodesOfStatements_eq_flatMap]
  exact (List.reverse_perm statements).flatMap_right _

/-! ## Blocks -/

namespace Frame

variable {frame : Frame} {inner : List Statement} {branchReached reached : Nat}

def nodes (frame : Frame) : List Node :=
  nodesOfBranches frame.branches ++ nodesOfStatements frame.before

theorem nodesOfBranches_allBranches (frame : Frame) (inner : List Statement) (reached : Nat) :
    (nodesOfBranches (frame.allBranches inner reached)).Perm
      (⟨.branch, none⟩ :: (nodesOfStatements inner ++ nodesOfBranches frame.branches)) := by
  rw [nodesOfBranches_eq_flatMap, allBranches]
  apply ((List.reverse_perm _).flatMap_right _).trans
  rw [List.flatMap_cons, ← nodesOfBranches_eq_flatMap, branch, Branch.nodes, List.cons_append]
  exact ((nodesOfStatements_reverse inner).append_right _).cons _

theorem nodes_close (frame : Frame) (inner : List Statement) (branchReached reached : Nat) :
    (frame.close inner branchReached reached).nodes.Subperm
      ((frame.close inner branchReached reached).node :: ⟨.branch, none⟩ ::
        (nodesOfStatements inner ++ nodesOfBranches frame.branches)) := by
  have branches := frame.nodesOfBranches_allBranches inner branchReached
  have body : (nodesOfStatements inner.reverse).Subperm
      (⟨.branch, none⟩ :: (nodesOfStatements inner ++ nodesOfBranches frame.branches)) := by
    apply (nodesOfStatements_reverse inner).subperm.trans
    exact ((List.sublist_append_left _ _).trans (List.sublist_cons_self _ _)).subperm
  unfold close
  dsimp only
  split
  · exact (branches.cons _).subperm
  · exact (branches.cons _).subperm
  · exact (List.subperm_cons _).2 body
  · exact (List.subperm_cons _).2 body
  -- What stood in a block that is not kept is left out.
  all_goals exact (List.subperm_cons _).2 List.nil_subperm

theorem wellFormed_close (frame : Frame) (inner : List Statement) (branchReached reached : Nat) :
    (frame.close inner branchReached reached).WellFormed := by
  have some : frame.allBranches inner branchReached ≠ [] := by simp [allBranches]
  unfold close
  dsimp only
  split
  · rw [Statement.WellFormed, List.head?_eq_some_head some]
    rfl
  · exact some
  all_goals exact trivial

theorem isError_close (frame : Frame) (inner : List Statement) (branchReached reached : Nat) :
    (frame.close inner branchReached reached).node.isError = frame.block.isUnsupported := by
  unfold close
  dsimp only
  split <;> rename_i same <;> rw [same] <;> rfl

end Frame

/-- The nodes of statements within open blocks, and of all that these hold. -/
def heldBy (statements : List Statement) (frames : List Frame) : List Node :=
  nodesOfStatements statements ++ frames.flatMap Frame.nodes

/-- The errors that are held, and those that open blocks will become. -/
def errorsOf (statements : List Statement) (frames : List Frame) : Nat :=
  (heldBy statements frames).countP Node.isError + frames.countP (·.block.isUnsupported)

section

variable (frame : Frame) (frames : List Frame) (inner : List Statement) (branchReached reached : Nat)

theorem heldBy_close :
    (heldBy (frame.close inner branchReached reached :: frame.before) frames).Subperm
      ((frame.close inner branchReached reached).node :: ⟨.branch, none⟩ ::
        heldBy inner (frame :: frames)) := by
  have nodes := (frame.nodes_close inner branchReached reached).append
    (Subperm.refl (nodesOfStatements frame.before ++ frames.flatMap Frame.nodes))
  simpa [heldBy, nodesOfStatements, Frame.nodes] using nodes

theorem errorsOf_close :
    errorsOf (frame.close inner branchReached reached :: frame.before) frames ≤
      errorsOf inner (frame :: frames) := by
  have nodes := (heldBy_close frame frames inner branchReached reached).countP_le Node.isError
  rw [List.countP_cons, List.countP_cons, frame.isError_close,
    if_neg (show ¬(Node.isError ⟨.branch, none⟩) = true by decide)] at nodes
  rw [errorsOf, errorsOf, List.countP_cons]
  omega

theorem heldBy_split (mark : Token) (label : String) :
    (heldBy [] ({ frame with
      branches := frame.branch inner reached :: frame.branches
      mark := mark
      label := label } :: frames)).Perm (⟨.branch, none⟩ :: heldBy inner (frame :: frames)) := by
  have body := (nodesOfStatements_reverse inner).append_right
    (nodesOfBranches frame.branches ++ nodesOfStatements frame.before ++ frames.flatMap Frame.nodes)
  simpa [heldBy, nodesOfStatements, Frame.nodes, nodesOfBranches, Frame.branch, Branch.nodes] using body

theorem wellFormed_heldBy_close (wellFormed : ∀ node ∈ heldBy inner (frame :: frames), node.WellFormed) :
    ∀ node ∈ heldBy (frame.close inner branchReached reached :: frame.before) frames,
      node.WellFormed := by
  intro node member
  rcases List.mem_cons.1 ((heldBy_close frame frames inner branchReached reached).subset member) with
    rfl | member
  · exact Statement.wellFormed_node (frame.wellFormed_close _ _ _)
  · exact Node.wellFormed_of_subset (List.Subset.refl _) wellFormed node member

end

/-! ## Arrows -/

theorem Token.Lexeme.Measured.arrow_of {lineStarts : Bool} {c : Char} {rest : List Char}
    {kind : Option Kind} {count : Nat} (measured : Measured lineStarts c rest kind count)
    (arrow : kind = some .arrow) :
    (arrowClass? (String.ofList (c :: rest.take count))).isSome = true := by
  subst arrow
  cases measured.formed (by decide) with
  | arrow listed => rwa [← List.prefix_iff_eq_take.1 (List.takeWhile_prefix _)]

theorem Token.isSome_arrowClass? {source : String} {token : Token}
    (member : token ∈ (Stream.ofTokens (tokenize source).tokens).ahead) (arrow : token.kind = .arrow) :
    (arrowClass? token.text).isSome = true := by
  rw [ahead_ofTokens] at member
  obtain ⟨lexeme, inside, kind, text⟩ := mem_placed member
  obtain ⟨_, c, rest, count, measured, same⟩ := measured_of_mem inside
  have listed := measured.arrow_of (by rw [kind, arrow])
  rwa [← same, text, String.ofList_toList] at listed

def Stream.Drawn (stream : Stream) : Prop :=
  ∀ token ∈ stream.ahead, token.kind = .arrow → (Token.arrowClass? token.text).isSome = true

namespace Stream.Drawn

variable {stream left : Stream}

theorem follows (drawn : stream.Drawn) (follows : left.Follows stream) : left.Drawn :=
  fun token member => drawn token (follows.within.subset member)

theorem peek (drawn : stream.Drawn) (arrow : stream.atKind .arrow = true) :
    ∃ way, Token.arrowClass? stream.peek.text = some way := by
  have kind : stream.peek.kind = .arrow := beq_iff_eq.1 arrow
  obtain ⟨rest, ahead⟩ := exists_ahead (by rw [kind]; decide)
  exact Option.isSome_iff_exists.1 (drawn _ (ahead ▸ List.mem_cons_self) kind)

end Stream.Drawn

/-! ## Statements -/

namespace Leaf

def Sound (leaf : Leaf) : Prop :=
  ∀ statement ∈ leaf.statement,
    statement.nodes = [statement.node] ∧ statement.WellFormed ∧ statement.kind ≠ .error

variable {token : Token} {stream : Stream}

theorem sound_none (issue : Option Diagnostic) (left : Stream) : Sound ⟨none, issue, left⟩ := nofun

theorem sound_participant (role : Role) : (participant role token stream).Sound := by
  unfold participant
  split
  · exact sound_none _ _
  · rintro _ ⟨⟩
    exact ⟨rfl, trivial, nofun⟩

theorem sound_message (drawn : stream.Drawn) : (message token stream).Sound := by
  unfold message
  split
  · split
    · rename_i arrow
      obtain ⟨way, listed⟩ := drawn.peek arrow
      dsimp only
      split
      · exact sound_none _ _
      · rintro _ ⟨⟩
        refine ⟨rfl, ⟨way, listed, ?_, ?_⟩, nofun⟩ <;> simp [listed]
    · exact sound_none _ _
  · exact sound_none _ _

theorem sound_title : (title token stream).Sound := by
  rintro _ ⟨⟩
  exact ⟨rfl, trivial, nofun⟩

theorem sound_autonumber : (autonumber token stream).Sound := by
  rintro _ ⟨⟩
  exact ⟨rfl, trivial, nofun⟩

theorem sound_onName (missing : String) (statement : String → Span → Statement)
    (sound : ∀ target span, Sound ⟨some (statement target span), none, stream⟩) :
    (onName missing statement token stream).Sound := by
  unfold onName
  split
  · exact sound_none _ _
  · exact sound _ _

theorem sound_note : (note token stream).Sound := by
  unfold note
  split
  · exact sound_none _ _
  · split
    · rintro _ ⟨⟩
      exact ⟨rfl, trivial, nofun⟩
    · split
      · split
        · exact sound_none _ _
        · rintro _ ⟨⟩
          exact ⟨rfl, trivial, nofun⟩
      · exact sound_none _ _

end Leaf

theorem Parsing.sound_leaf (token : Token) {stream : Stream} (drawn : stream.Drawn) :
    (leaf token stream).Sound := by
  unfold leaf
  split
  · exact Leaf.sound_participant _
  · exact Leaf.sound_title
  · exact Leaf.sound_note
  · refine Leaf.sound_onName _ .activation fun _ _ => ?_
    rintro _ ⟨⟩
    exact ⟨rfl, trivial, nofun⟩
  · refine Leaf.sound_onName _ .deactivation fun _ _ => ?_
    rintro _ ⟨⟩
    exact ⟨rfl, trivial, nofun⟩
  · exact Leaf.sound_autonumber
  · exact Leaf.sound_none _ _
  · exact Leaf.sound_message drawn

theorem heldBy_cons {statement : Statement} (single : statement.nodes = [statement.node])
    (statements : List Statement) (frames : List Frame) :
    heldBy (statement :: statements) frames = statement.node :: heldBy statements frames := by
  rw [heldBy, nodesOfStatements, single]
  rfl

namespace Leaf.Sound

variable {leaf : Leaf} {statements : List Statement} {frames : List Frame}

theorem wellFormed (sound : leaf.Sound) (held : ∀ node ∈ heldBy statements frames, node.WellFormed) :
    ∀ node ∈ heldBy (leaf.statement.toList ++ statements) frames, node.WellFormed := by
  cases found : leaf.statement with
  | none => exact held
  | some statement =>
    obtain ⟨single, wellFormed, -⟩ := sound statement found
    rw [Option.toList_some, List.singleton_append, heldBy_cons single]
    exact List.forall_mem_cons.2 ⟨Statement.wellFormed_node wellFormed, held⟩

theorem errorsOf_eq (sound : leaf.Sound) :
    errorsOf (leaf.statement.toList ++ statements) frames = errorsOf statements frames := by
  cases found : leaf.statement with
  | none => rfl
  | some statement =>
    obtain ⟨single, -, plain⟩ := sound statement found
    rw [Option.toList_some, List.singleton_append, errorsOf, heldBy_cons single,
      List.countP_cons_of_neg]
    · rfl
    · simpa [Node.isError, Statement.node] using plain

end Leaf.Sound

/-! ## Reports -/

def Diagnostic.isUnsupported (issue : Diagnostic) : Bool :=
  "Unsupported block: ".toList.isPrefixOf issue.message.toList

def Diagnostic.leavesOpen (issue : Diagnostic) : Bool := issue.message == "Expected @enduml"

theorem prefix_toList_append (start more : String) : start.toList <+: (start ++ more).toList := by
  rw [String.toList_append]
  exact List.prefix_append _ _

namespace Diagnostic

theorem isUnsupported_unsupported (block : Block) (opener : Token) :
    (syntaxAt (block.unsupported opener) opener).isUnsupported = true :=
  List.isPrefixOf_iff_prefix.2 (prefix_toList_append _ _)

theorem leavesOpen_append {start : String} (other : ¬start.toList <+: "Expected @enduml".toList)
    (more : String) (token : Token) : (syntaxAt (start ++ more) token).leavesOpen = false := by
  rw [leavesOpen, beq_eq_false_iff_ne]
  intro same
  apply other
  rw [← same]
  exact prefix_toList_append start more

theorem leavesOpen_unsupported (block : Block) (opener : Token) :
    (syntaxAt (block.unsupported opener) opener).leavesOpen = false :=
  leavesOpen_append (by decide) _ _

theorem leavesOpen_unexpected (token : Token) :
    (syntaxAt ("Unexpected token: " ++ token.text) token).leavesOpen = false :=
  leavesOpen_append (by decide) _ _

theorem leavesOpen_unclosed (frame : Frame) (current : Token) :
    (frame.unclosed current).leavesOpen = false := by
  rw [Frame.unclosed, String.append_assoc]
  exact leavesOpen_append (by decide) _ _

end Diagnostic

theorem Parsing.leavesOpen_leaf (token : Token) (stream : Stream) :
    (leaf token stream).issue.toList.countP Diagnostic.leavesOpen = 0 := by
  have others : ∀ message ∈ Leaf.complaints, (message == "Expected @enduml") = false := by decide
  apply List.countP_eq_zero.2
  intro issue member
  obtain ⟨message, known, about⟩ :=
    reportsFrom_leaf token stream issue (Option.mem_toList.1 member)
  have same : issue.message = message := by
    rcases about with rfl | ⟨_, -, -, rfl⟩
    · rfl
    · rfl
  rw [Diagnostic.leavesOpen, same, others message known]
  exact Bool.false_ne_true

/-! ## The machine -/

theorem nodes_diagram (statements : List Statement) (span : Span) (terminated : Bool) :
    (Diagram.nodes ⟨statements.reverse, span, terminated⟩).Perm
      (⟨.diagram, none⟩ :: nodesOfStatements statements) :=
  (nodesOfStatements_reverse statements).cons _

namespace Parsing

variable {parsing : Parsing}

/-- Whether what a reading holds is well formed, and its reports answer for the errors and for the diagrams
that are not closed. -/
structure Accounts (parsing : Parsing) : Prop where
  drawn : parsing.stream.Drawn
  held : ∀ node ∈ heldBy parsing.statements parsing.frames, node.WellFormed
  closed : ∀ node ∈ parsing.diagrams.flatMap Diagram.nodes, node.WellFormed
  errors : errorsOf parsing.statements parsing.frames +
      (parsing.diagrams.flatMap Diagram.nodes).countP Node.isError ≤
    parsing.issues.countP Diagnostic.isUnsupported
  ends : parsing.diagrams.countP (!·.terminated) = parsing.issues.countP Diagnostic.leavesOpen

theorem Accounts.accept (accounts : parsing.Accounts) (token : Token) :
    (parsing.accept (leaf token parsing.stream)).Accounts := by
  obtain ⟨drawn, held, closed, errors, ends⟩ := accounts
  have sound := sound_leaf token drawn
  constructor
  · exact drawn.follows (follows_leaf token parsing.stream)
  · exact sound.wellFormed held
  · exact closed
  · have more := (issues_accept parsing (leaf token parsing.stream)).sublist.countP_le
      (p := Diagnostic.isUnsupported)
    unfold Parsing.accept at more ⊢
    rw [sound.errorsOf_eq]
    exact errors.trans more
  · unfold Parsing.accept
    rw [List.countP_append, leavesOpen_leaf, Nat.zero_add]
    exact ends

/-- A block that is not kept is reported when it is opened, before it becomes an error. -/
theorem Accounts.push (accounts : parsing.Accounts) (block : Block) (opener : Token) :
    (parsing.push block opener).Accounts := by
  have same : heldBy [] (parsing.push block opener).frames =
      heldBy parsing.statements parsing.frames := rfl
  have errors := accounts.errors
  constructor
  · exact accounts.drawn.follows (Stream.follows_skip _ _)
  · exact accounts.held
  · exact accounts.closed
  · unfold errorsOf at errors ⊢
    unfold Parsing.push at same ⊢
    dsimp only at same ⊢
    rw [same, List.countP_cons]
    -- The block counts as an error from here on, and so does its report.
    cases unsupported : block.isUnsupported with
    | false => simpa [unsupported] using errors
    | true =>
      simp only [if_true, List.countP_cons, Diagnostic.isUnsupported_unsupported]
      omega
  · unfold Parsing.push
    dsimp only
    split
    · rw [List.countP_cons_of_neg]
      · exact accounts.ends
      · simp [Diagnostic.leavesOpen_unsupported]
    · exact accounts.ends

theorem Accounts.split (accounts : parsing.Accounts) {frame : Frame} {frames : List Frame}
    (opened : parsing.frames = frame :: frames) (mark : Token) (reached : Nat) :
    (parsing.split frame frames mark reached).Accounts := by
  obtain ⟨drawn, held, closed, errors, ends⟩ := accounts
  rw [opened] at held errors
  have nodes := heldBy_split frame frames parsing.statements reached mark parsing.stream.label.1
  refine ⟨drawn.follows (Stream.follows_skip _ _), ?_, closed, ?_, ends⟩
  · exact Node.wellFormed_of_subset nodes.subset held
  · have same := nodes.countP_eq Node.isError
    rw [List.countP_cons_of_neg (by decide)] at same
    unfold errorsOf at errors ⊢
    rw [Parsing.split, same]
    exact errors

theorem Accounts.pop (accounts : parsing.Accounts) {frame : Frame} {frames : List Frame}
    (opened : parsing.frames = frame :: frames) (reached : Nat) :
    (parsing.pop frame frames reached).Accounts := by
  obtain ⟨drawn, held, closed, errors, ends⟩ := accounts
  rw [opened] at held errors
  refine ⟨drawn, ?_, closed, ?_, ends⟩
  · exact wellFormed_heldBy_close frame frames parsing.statements _ _ held
  · have fewer := errorsOf_close frame frames parsing.statements reached parsing.stream.reached
    exact (Nat.add_le_add_right fewer _).trans errors

theorem wellFormed_abandon (current : Token) (reached : Nat) {frames : List Frame}
    {statements : List Statement} (held : ∀ node ∈ heldBy statements frames, node.WellFormed)
    (issues : List Diagnostic) :
    ∀ node ∈ nodesOfStatements (abandon current reached frames statements issues).1,
      node.WellFormed := by
  -- From the inside out, every block that is left open closes into the one around it.
  induction frames generalizing statements issues with
  | nil => simpa [heldBy, abandon] using held
  | cons frame frames ih => exact ih (wellFormed_heldBy_close frame frames statements _ _ held) _

theorem errors_abandon (current : Token) (reached : Nat) (frames : List Frame)
    (statements : List Statement) (issues : List Diagnostic) :
    (nodesOfStatements (abandon current reached frames statements issues).1).countP Node.isError ≤
      errorsOf statements frames := by
  induction frames generalizing statements issues with
  | nil => simp [abandon, errorsOf, heldBy]
  | cons frame frames ih =>
    exact (ih _ _).trans (errorsOf_close frame frames statements reached reached)

theorem leavesOpen_abandon (current : Token) (reached : Nat) (frames : List Frame)
    (statements : List Statement) (issues : List Diagnostic) :
    (abandon current reached frames statements issues).2.countP Diagnostic.leavesOpen =
      issues.countP Diagnostic.leavesOpen := by
  induction frames generalizing statements issues with
  | nil => rfl
  | cons frame frames ih =>
    rw [abandon, ih, List.countP_cons_of_neg]
    simp [Diagnostic.leavesOpen_unclosed]

theorem nodes_finish (parsing : Parsing) (opened current : Token) (reached : Nat) :
    ((parsing.finish opened current reached).diagrams.flatMap Diagram.nodes).Perm
      (⟨.diagram, none⟩ :: (nodesOfStatements
        (abandon current reached parsing.frames parsing.statements parsing.issues).1 ++
          parsing.diagrams.flatMap Diagram.nodes)) :=
  (nodes_diagram _ _ _).append_right _

theorem Accounts.finish (accounts : parsing.Accounts) (opened current : Token) (reached : Nat) :
    (parsing.finish opened current reached).Accounts := by
  obtain ⟨drawn, held, closed, errors, ends⟩ := accounts
  have nodes := nodes_finish parsing opened current reached
  constructor
  · exact drawn
  · exact nofun
  · have wellFormed := wellFormed_abandon current reached held parsing.issues
    exact Node.wellFormed_of_subset nodes.subset (List.forall_mem_append.2 ⟨wellFormed, closed⟩)
  · have fewer := errors_abandon current reached parsing.frames parsing.statements parsing.issues
    have more := (issues_finish parsing opened current reached).sublist.countP_le
      (p := Diagnostic.isUnsupported)
    have same := nodes.countP_eq Node.isError
    rw [List.countP_cons_of_neg (by decide), List.countP_append] at same
    have none : errorsOf [] [] = 0 := rfl
    rw [same]
    change errorsOf [] [] + _ ≤ _
    omega
  · have reported := leavesOpen_abandon current reached parsing.frames parsing.statements parsing.issues
    unfold Parsing.finish
    dsimp only
    cases current.kind == .endUml with
    | true => simpa [reported] using ends
    | false =>
      rw [List.countP_cons_of_pos rfl, ends, ← reported]
      exact (List.countP_cons_of_pos rfl).symm

theorem Accounts.inside (accounts : parsing.Accounts) (opened token : Token) (reached : Nat) :
    (parsing.inside opened token reached).Accounts := by
  have leaf := accounts.accept token
  unfold Parsing.inside
  split
  · exact accounts.finish _ _ _
  · exact accounts.push _ _
  · rename_i same
    exact accounts.pop same _
  · rename_i same _ _ _
    split
    · exact accounts.split same _ _
    · exact leaf
  · exact leaf

theorem Accounts.outside (accounts : parsing.Accounts) (token : Token) :
    (parsing.outside token).Accounts := by
  obtain ⟨drawn, held, closed, errors, ends⟩ := accounts
  unfold Parsing.outside
  split
  · exact ⟨drawn, held, closed, errors, ends⟩
  · refine ⟨drawn, held, closed, ?_, ?_⟩
    · exact errors.trans (List.sublist_cons_self _ _).countP_le
    · rw [report, List.countP_cons_of_neg]
      · exact ends
      · simp [Diagnostic.leavesOpen_unexpected]

theorem Accounts.step (accounts : parsing.Accounts) (token : Token) :
    (parsing.step token).Accounts := by
  obtain ⟨drawn, held, closed, errors, ends⟩ := accounts
  have next : parsing.advance.Accounts :=
    ⟨drawn.follows (Stream.follows_drop _ _), held, closed, errors, ends⟩
  cases inside : parsing.diagram with
  | none => exact step_outside inside token ▸ next.outside token
  | some opened => exact step_inside inside token ▸ next.inside opened token _

theorem Accounts.skipSeparators (accounts : parsing.Accounts) : parsing.skipSeparators.Accounts := by
  obtain ⟨drawn, held, closed, errors, ends⟩ := accounts
  exact ⟨drawn.follows (Stream.follows_skip _ _), held, closed, errors, ends⟩

theorem Accounts.run (accounts : parsing.Accounts) : parsing.run.Accounts :=
  run_keeps (fun _ accounts => accounts.skipSeparators) (fun _ token _ accounts _ => accounts.step token)
    accounts

theorem Accounts.complete (accounts : parsing.Accounts) : parsing.complete.Accounts := by
  unfold Parsing.complete
  split
  · exact accounts
  · exact accounts.finish _ _ _

/-! ## Diagrams that are closed -/

def Closed (parsing : Parsing) : Prop := ∀ diagram ∈ parsing.diagrams, diagram.terminated = true

theorem Closed.inside (closed : parsing.Closed) (opened token : Token) (reached : Nat) :
    (parsing.inside opened token reached).Closed := by
  unfold Parsing.inside
  split
  · rename_i endUml
    exact List.forall_mem_cons.2 ⟨beq_iff_eq.2 endUml, closed⟩
  · exact closed
  · exact closed
  · split <;> exact closed
  · exact closed

theorem Closed.step (closed : parsing.Closed) (token : Token) : (parsing.step token).Closed := by
  have next : parsing.advance.Closed := closed
  cases inside : parsing.diagram with
  | some opened => exact step_inside inside token ▸ next.inside opened token _
  | none =>
    rw [step_outside inside, outside]
    split <;> exact closed

/-- No diagram stays open but at the end of the source. -/
theorem Closed.run (closed : parsing.Closed) : parsing.run.Closed :=
  run_keeps (fun _ closed => closed) (fun _ token _ closed _ => closed.step token) closed

theorem Closed.complete (closed : parsing.Closed) :
    ∀ diagram ∈ parsing.complete.diagrams.tail, diagram.terminated = true := by
  unfold Parsing.complete
  split
  · intro diagram member
    exact closed diagram (List.mem_of_mem_tail member)
  · exact closed

end Parsing

/-! ## Sources -/

theorem Parsing.accounts_start (source : String) :
    (Parsing.start (.ofTokens (tokenize source).tokens)).Accounts := by
  constructor
  · exact fun token member => Token.isSome_arrowClass? member
  · exact List.forall_mem_nil _
  · exact List.forall_mem_nil _
  · exact Nat.le_refl 0
  · rfl

/-- The document of a source is well formed at every depth, whatever the source. Only its last diagram may
not be closed, and is reported if it is not. There are at most as many errors in it as blocks that are
reported because they are not kept; such blocks within one another are reported one by one, and make up
one error. So where nothing is reported, all diagrams are closed and there is no error. -/
theorem wellFormed_ofSource (source : String) :
    (∀ node ∈ (Document.ofSource source).nodes, node.WellFormed) ∧
    (∀ diagram ∈ (Document.ofSource source).diagrams.dropLast, diagram.terminated = true) ∧
    (Document.ofSource source).diagrams.countP (!·.terminated) =
      (analyze source).syntaxIssues.countP Diagnostic.leavesOpen ∧
    (Document.ofSource source).nodes.countP Node.isError ≤
      (analyze source).syntaxIssues.countP Diagnostic.isUnsupported ∧
    ((analyze source).syntaxIssues = [] →
      (∀ diagram ∈ (Document.ofSource source).diagrams, diagram.terminated = true) ∧
        ∀ node ∈ (Document.ofSource source).nodes, node.kind ≠ .error) := by
  let start := Parsing.start (.ofTokens (tokenize source).tokens)
  have diagrams : (Document.ofSource source).diagrams = start.run.complete.diagrams.reverse := rfl
  have issues : (analyze source).syntaxIssues = start.run.complete.issues.reverse :=
    syntaxIssues_analyze source
  have outset : start.Closed := nofun
  have others := outset.run.complete
  obtain ⟨-, -, closed, errors, ends⟩ := (Parsing.accounts_start source).run.complete
  have nodes : (Document.ofSource source).nodes.Perm
      (⟨.document, none⟩ :: start.run.complete.diagrams.flatMap Diagram.nodes) :=
    ((List.reverse_perm _).flatMap_right _).cons _
  have unclosed : (Document.ofSource source).diagrams.countP (!·.terminated) =
      (analyze source).syntaxIssues.countP Diagnostic.leavesOpen := by
    rw [diagrams, issues, List.countP_reverse, List.countP_reverse]
    exact ends
  have fewer : (Document.ofSource source).nodes.countP Node.isError ≤
      (analyze source).syntaxIssues.countP Diagnostic.isUnsupported := by
    rw [nodes.countP_eq, List.countP_cons_of_neg (by decide), issues, List.countP_reverse]
    exact Nat.le_of_add_left_le errors
  refine ⟨?_, ?_, unclosed, fewer, ?_⟩
  · exact Node.wellFormed_of_subset nodes.subset closed
  · intro diagram member
    rw [diagrams, List.dropLast_reverse, List.mem_reverse] at member
    exact others diagram member
  · intro silent
    rw [silent, List.countP_nil] at unclosed fewer
    constructor
    · intro diagram member
      simpa using List.countP_eq_zero.1 unclosed diagram member
    · intro node member
      simpa [Node.isError] using List.countP_eq_zero.1 (Nat.le_zero.1 fewer) node member

/-- Branches within branches, and a message for each class of arrows that the flags are about. -/
theorem wellFormed_ofSource_clean :
    let source := "@startuml\nA -->> B : go\nalt a\nB <<-- A\nelse\npar\nA -> B\nend\nend\n@enduml"
    (analyze source).syntaxIssues = [] ∧
      (∀ diagram ∈ (Document.ofSource source).diagrams, diagram.terminated = true) ∧
      ∀ node ∈ (Document.ofSource source).nodes, node.kind ≠ .error := by
  intro source
  have silent : (analyze source).syntaxIssues = [] := by decide +kernel
  exact ⟨silent, (wellFormed_ofSource source).2.2.2.2 silent⟩

example :
    let source := "@startuml\ngroup a\nbreak b\nA -> B\nend\n@enduml\n@startuml"
    ((Document.ofSource source).nodes.countP Node.isError,
      (analyze source).syntaxIssues.countP Diagnostic.isUnsupported,
      (analyze source).syntaxIssues.countP Diagnostic.leavesOpen) = (1, 2, 1) := by
  decide +kernel

end Lifeline
