import Lifeline.Diagram.Analysis
import Lifeline.Proofs.Diagram.Settled
import Lifeline.Proofs.Diagram.Source

/-! What holds at every step of a reading.

The statements that are read, the labels and branches of the blocks that are open and the diagrams
that are closed are settled from the start, and every step keeps them so. At the end they make up
the document. -/

set_option autoImplicit false

namespace Lifeline

open Token (IsName)

/-! ## Blocks -/

structure Frame.Settled (frame : Frame) : Prop where
  label : Labels frame.label.toList
  branches : ∀ branch ∈ frame.branches,
    Labels branch.condition.toList ∧ Lifeline.Settled branch.statements
  before : Lifeline.Settled frame.before

theorem settled_branches {branches : List Branch}
    (settled : ∀ branch ∈ branches, Settled branch.statements) :
    ∀ node ∈ nodesOfBranches branches, node.Settled := by
  induction branches with
  | nil => simp [nodesOfBranches]
  | cons branch rest ih =>
    obtain ⟨condition, statements, span⟩ := branch
    intro node member
    simp only [nodesOfBranches, Branch.nodes, List.mem_append, List.mem_cons] at member
    rcases member with (rfl | inside) | later
    · exact trivial
    · exact settled_nodes (settled _ List.mem_cons_self) node inside
    · exact ih (fun other member => settled other (List.mem_cons_of_mem _ member)) node later

namespace Frame.Settled

variable {frame : Frame} {inner : List Statement}

theorem branch (settled : frame.Settled) (body : Lifeline.Settled inner) (reached : Nat) :
    Labels (frame.branch inner reached).condition.toList ∧
      Lifeline.Settled (frame.branch inner reached).statements :=
  ⟨settled.label, body.reverse⟩

theorem allBranches (settled : frame.Settled) (body : Lifeline.Settled inner) (reached : Nat) :
    ∀ branch ∈ frame.allBranches inner reached,
      Labels branch.condition.toList ∧ Lifeline.Settled branch.statements := by
  intro branch member
  rw [Frame.allBranches, List.mem_reverse] at member
  rcases List.mem_cons.1 member with rfl | earlier
  · exact settled.branch body reached
  · exact settled.branches branch earlier

theorem close (settled : frame.Settled) (body : Lifeline.Settled inner)
    (branchReached reached : Nat) :
    ∀ node ∈ (frame.close inner branchReached reached).nodes, node.Settled := by
  have branches := settled.allBranches body branchReached
  have inside := settled_branches fun branch member => (branches branch member).2
  unfold Frame.close
  dsimp only
  split
  · exact List.forall_mem_cons.2 ⟨fun branch member => (branches branch member).1, inside⟩
  · exact List.forall_mem_cons.2 ⟨by simp [Node.Settled, Frame.allBranches], inside⟩
  · exact List.forall_mem_cons.2 ⟨settled.label, settled_nodes body.reverse⟩
  · exact List.forall_mem_cons.2 ⟨settled.label, settled_nodes body.reverse⟩
  all_goals simp [Statement.nodes, Node.Settled]

end Frame.Settled

/-! ## The machine -/

namespace Parsing

structure Settled (parsing : Parsing) : Prop where
  clear : parsing.stream.Clear
  frames : ∀ frame ∈ parsing.frames, frame.Settled
  statements : Lifeline.Settled parsing.statements
  diagrams : ∀ diagram ∈ parsing.diagrams, Lifeline.Settled diagram.statements

variable {parsing : Parsing}

theorem Settled.accept (settled : parsing.Settled) {leaf : Leaf} (read : leaf.Settled)
    (within : leaf.left.Within parsing.stream) : (parsing.accept leaf).Settled where
  clear := settled.clear.within within
  frames := settled.frames
  statements := by
    refine Lifeline.Settled.append (fun statement member => ?_) settled.statements
    exact read statement (Option.mem_toList.1 member)
  diagrams := settled.diagrams

theorem Settled.push (settled : parsing.Settled) (block : Block) (opener : Token) :
    (parsing.push block opener).Settled where
  clear := settled.clear.within (Stream.within_skip _ _)
  frames := List.forall_mem_cons.2
    ⟨⟨settled.clear.label, by simp, settled.statements⟩, settled.frames⟩
  statements := .nil
  diagrams := settled.diagrams

theorem Settled.split (settled : parsing.Settled) {frame : Frame} {frames : List Frame}
    (opened : parsing.frames = frame :: frames) (mark : Token) (reached : Nat) :
    (parsing.split frame frames mark reached).Settled where
  clear := settled.clear.within (Stream.within_skip _ _)
  frames := by
    obtain ⟨inner, outer⟩ := List.forall_mem_cons.1 (opened ▸ settled.frames)
    refine List.forall_mem_cons.2 ⟨⟨settled.clear.label, ?_, inner.before⟩, outer⟩
    exact List.forall_mem_cons.2 ⟨inner.branch settled.statements reached, inner.branches⟩
  statements := .nil
  diagrams := settled.diagrams

theorem Settled.pop (settled : parsing.Settled) {frame : Frame} {frames : List Frame}
    (opened : parsing.frames = frame :: frames) (reached : Nat) :
    (parsing.pop frame frames reached).Settled where
  clear := settled.clear
  frames := (List.forall_mem_cons.1 (opened ▸ settled.frames)).2
  statements := by
    obtain ⟨inner, -⟩ := List.forall_mem_cons.1 (opened ▸ settled.frames)
    exact .cons (inner.close settled.statements _ _) inner.before
  diagrams := settled.diagrams

theorem settled_abandon (current : Token) (reached : Nat) {frames : List Frame}
    {statements : List Statement} (unclosed : ∀ frame ∈ frames, frame.Settled)
    (settled : Lifeline.Settled statements) (issues : List Diagnostic) :
    Lifeline.Settled (abandon current reached frames statements issues).1 := by
  -- Every block that is left open is closed into the one around it, from the inside out.
  induction frames generalizing statements issues with
  | nil => exact settled
  | cons frame frames ih =>
    obtain ⟨inner, outer⟩ := List.forall_mem_cons.1 unclosed
    exact ih outer (.cons (inner.close settled _ _) inner.before) _

theorem Settled.finish (settled : parsing.Settled) (opened current : Token) (reached : Nat) :
    (parsing.finish opened current reached).Settled where
  clear := settled.clear
  frames := by simp [Parsing.finish]
  statements := .nil
  diagrams := List.forall_mem_cons.2
    ⟨(settled_abandon current reached settled.frames settled.statements _).reverse,
      settled.diagrams⟩

theorem settled_leaf {token : Token} {stream : Stream} (clear : stream.Clear)
    (named : token.kind.isName = true → IsName token.value) : (leaf token stream).Settled := by
  unfold leaf
  split
  · exact Leaf.settled_participant clear _ _
  · exact Leaf.settled_title clear _
  · exact Leaf.settled_note clear _
  · refine Leaf.settled_onName clear _ .activation (fun _ name _ _ => ?_) _
    refine Leaf.settled_single rfl ?_ _ _
    exact name
  · refine Leaf.settled_onName clear _ .deactivation (fun _ name _ _ => ?_) _
    refine Leaf.settled_single rfl ?_ _ _
    exact name
  · refine Leaf.settled_single rfl ?_ _ _
    exact trivial
  · exact Leaf.settled_none _ _
  · exact Leaf.settled_message clear named

theorem Settled.inside (settled : parsing.Settled) {token : Token}
    (named : token.kind.isName = true → IsName token.value) (opened : Token) (reached : Nat) :
    (parsing.inside opened token reached).Settled := by
  have leaf := settled.accept (settled_leaf settled.clear named) (follows_leaf _ _).within
  unfold Parsing.inside
  split
  · exact settled.finish _ _ _
  · exact settled.push _ _
  · rename_i same
    exact settled.pop same _
  · rename_i same _ _ _
    split
    · exact settled.split same _ _
    · exact leaf
  · exact leaf

theorem Settled.step (settled : parsing.Settled) {token : Token} {rest : List Token}
    (ahead : parsing.stream.ahead = token :: rest) : (parsing.step token).Settled := by
  have named : token.kind.isName = true → IsName token.value :=
    Token.EndsClear.isName settled.clear (ahead ▸ List.mem_cons_self)
  have after : Settled { parsing with stream := parsing.stream.drop 1 } :=
    ⟨settled.clear.drop 1, settled.frames, settled.statements, settled.diagrams⟩
  -- Inside a diagram the token is read, and outside it can only open one.
  unfold Parsing.step
  dsimp only
  split
  · exact after.inside named _ _
  · unfold outside
    split
    · exact ⟨after.clear, after.frames, after.statements, after.diagrams⟩
    · exact ⟨after.clear, after.frames, after.statements, after.diagrams⟩

theorem Settled.skipSeparators (settled : parsing.Settled) : parsing.skipSeparators.Settled :=
  ⟨settled.clear.within (Stream.within_skip _ _), settled.frames, settled.statements,
    settled.diagrams⟩

theorem Settled.run (settled : parsing.Settled) : parsing.run.Settled :=
  run_keeps (fun _ => Settled.skipSeparators) (fun _ _ _ settled ahead => settled.step ahead) settled

theorem Settled.complete (settled : parsing.Settled) : parsing.complete.Settled := by
  unfold Parsing.complete
  split
  · exact settled
  · exact settled.finish _ _ _

end Parsing

/-- The documents of clear sources are settled. -/
theorem settled_ofSource {source : String} (clear : Token.Clear source.toList) :
    Settled (Document.ofSource source).statements := by
  have start : (Parsing.start (Stream.ofTokens (tokenize source).tokens)).Settled :=
    ⟨⟨source.toList, clear, ahead_ofTokens source ▸ List.suffix_refl _⟩, by simp [Parsing.start],
      .nil, by simp [Parsing.start]⟩
  have read := start.run.complete
  intro statement member
  obtain ⟨diagram, inside, within⟩ := List.mem_flatMap.1 member
  exact read.diagrams diagram (List.mem_reverse.1 inside) statement within

end Lifeline
