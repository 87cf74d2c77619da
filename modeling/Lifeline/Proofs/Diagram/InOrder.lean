import Lifeline.Diagram.Parse
import Lifeline.Proofs.Diagram.Outline
import Lifeline.Proofs.Diagram.Stream

/-! Streams whose tokens stand in order, and how far a statement reaches in one.

A stream has been read up to an offset, and the tokens ahead stand behind it, one behind the other.
Reading moves the offset on. A statement's range goes from its first token to an offset that the
reading had come to at some point. -/

set_option autoImplicit false

namespace Lifeline

theorem Token.offset_le_stop (token : Token) : token.offset ≤ token.stop := Nat.le_add_right _ _

def Span.StartsAt (fits : Token → Prop) (span : Span) : Prop :=
  span.start ≤ span.stop ∧ ∃ token, fits token ∧
    span.line = token.line ∧ span.column = token.column ∧ span.start = token.offset

theorem Span.startsAt_upTo {fits : Token → Prop} {token : Token} (fit : fits token) (stop : Nat) :
    ((Span.ofToken token).upTo stop).StartsAt fits :=
  ⟨Nat.le_trans token.offset_le_stop (Nat.le_max_right _ _), token, fit, rfl, rfl, rfl⟩

namespace Stream

/-- Whether the tokens ahead fit and stand in order behind what has been read. -/
structure InOrder (fits : Token → Prop) (stream : Stream) : Prop where
  fit : ∀ token ∈ stream.ahead, fits token
  ahead : stream.ahead.Pairwise fun first second => first.stop ≤ second.offset
  behind : ∀ token ∈ stream.ahead, stream.reached ≤ token.offset
  /-- What has been read ends with a token. -/
  come : stream.reached = 0 ∨ ∃ token, fits token ∧ stream.reached = token.stop

variable {fits : Token → Prop} {stream left : Stream} {token : Token} {rest : List Token}

namespace InOrder

theorem drop_one (inOrder : stream.InOrder fits) :
    (stream.drop 1).InOrder fits ∧ stream.reached ≤ (stream.drop 1).reached := by
  cases ahead : stream.ahead with
  | nil => rw [drop_of_nil ahead]; exact ⟨inOrder, Nat.le_refl _⟩
  | cons token rest =>
    obtain ⟨fits, sorted, behind, -⟩ := inOrder
    rw [ahead] at fits sorted behind
    obtain ⟨next, later⟩ := List.pairwise_cons.1 sorted
    obtain ⟨fit, fits⟩ := List.forall_mem_cons.1 fits
    refine ⟨⟨?_, ?_, ?_, .inr ⟨token, fit, reached_drop_one ahead⟩⟩, ?_⟩
    · rwa [ahead_drop_one ahead]
    · rwa [ahead_drop_one ahead]
    · rwa [ahead_drop_one ahead, reached_drop_one ahead]
    · rw [reached_drop_one ahead]
      exact Nat.le_trans (behind token List.mem_cons_self) token.offset_le_stop

theorem follows (inOrder : stream.InOrder fits) (follows : left.Follows stream) :
    left.InOrder fits ∧ stream.reached ≤ left.reached := by
  obtain ⟨count, rfl⟩ := follows
  induction count with
  | zero => exact ⟨inOrder, Nat.le_refl _⟩
  | succ count ih =>
    rw [← drop_drop]
    obtain ⟨inOrder, reached⟩ := ih
    obtain ⟨inOrder, reached'⟩ := inOrder.drop_one
    exact ⟨inOrder, Nat.le_trans reached reached'⟩

end InOrder

end Stream

/-! ## Statements -/

namespace Leaf

open Lifeline.Stream (Follows follows_skip follows_drop follows_dropIf follows_name?)

/-- Whether the statement that was read holds no others, and goes from a token to where the reading
had come at some point. -/
def ReachesFrom (token : Token) (stream : Stream) (leaf : Leaf) : Prop :=
  ∀ statement ∈ leaf.statement, ∃ middle : Stream, middle.Follows stream ∧ leaf.left.Follows middle ∧
    statement.outline = .node (spanFrom token middle) []

variable {token : Token} {stream : Stream}

theorem reachesFrom_fail (message : String) (left : Stream) :
    (fail message left).ReachesFrom token stream := nofun

theorem reachesFrom_participant (role : Role) :
    (participant role token stream).ReachesFrom token stream := by
  unfold participant
  split
  · exact reachesFrom_fail _ _
  · rename_i left found
    rintro _ ⟨⟩
    exact ⟨_, (follows_nickname left).trans (follows_name? found), follows_skip _ _, rfl⟩

theorem reachesFrom_message : (message token stream).ReachesFrom token stream := by
  have follows := follows_message token stream
  unfold message at follows ⊢
  split at follows
  · rename_i name
    rw [if_pos name]
    split at follows
    · rename_i arrow
      rw [if_pos arrow]
      dsimp only at follows ⊢
      split
      · exact reachesFrom_fail _ _
      · rename_i found
        rw [found] at follows
        rintro _ ⟨⟩
        exact ⟨_, follows, .refl _, rfl⟩
    · rename_i arrow
      rw [if_neg arrow]
      exact reachesFrom_fail _ _
  · rename_i name
    rw [if_neg name]
    exact nofun

theorem reachesFrom_title : (title token stream).ReachesFrom token stream := by
  rintro _ ⟨⟩
  exact ⟨_, follows_skip _ _, .refl _, rfl⟩

theorem reachesFrom_autonumber : (autonumber token stream).ReachesFrom token stream := by
  rintro _ ⟨⟩
  exact ⟨_, follows_dropIf _ _ _, follows_skip _ _, rfl⟩

theorem reachesFrom_onName (missing : String) (statement : String → Span → Statement)
    (outline : ∀ target span, (statement target span).outline = .node span []) :
    (onName missing statement token stream).ReachesFrom token stream := by
  unfold onName
  split
  · exact reachesFrom_fail _ _
  · rename_i found
    rintro _ ⟨⟩
    exact ⟨_, follows_name? found, .refl _, outline _ _⟩

theorem reachesFrom_note : (note token stream).ReachesFrom token stream := by
  have placed := follows_placement stream
  unfold note
  split
  · exact reachesFrom_fail _ _
  · rename_i left same
    rw [same] at placed
    split
    · rintro _ ⟨⟩
      exact ⟨_, ((follows_skip _ _).trans (follows_drop _ _)).trans placed, .refl _, rfl⟩
    · split
      · have body := follows_noteBody left
        split
        · exact reachesFrom_fail _ _
        · rename_i same
          rw [same] at body
          rintro _ ⟨⟩
          exact ⟨_, body.trans placed, .refl _, rfl⟩
      · exact reachesFrom_fail _ _

end Leaf

theorem Parsing.reachesFrom_leaf (token : Token) (stream : Stream) :
    (leaf token stream).ReachesFrom token stream := by
  unfold leaf
  split
  · exact Leaf.reachesFrom_participant _
  · exact Leaf.reachesFrom_title
  · exact Leaf.reachesFrom_note
  · exact Leaf.reachesFrom_onName _ .activation fun _ _ => rfl
  · exact Leaf.reachesFrom_onName _ .deactivation fun _ _ => rfl
  · exact Leaf.reachesFrom_autonumber
  · exact nofun
  · exact Leaf.reachesFrom_message

end Lifeline
