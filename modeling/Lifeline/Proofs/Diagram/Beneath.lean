import Lifeline.Proofs.Diagram.Clean
import Mathlib.Data.List.ModifyLast

/-! What was read before, beneath what is read.

The machine adds to what it has and looks at none of it again, but for the blocks that are open. So
statements that stand first in the first diagram, and reports that come first, stay where they are,
and all that is read after them is read as if they were not there. -/

set_option autoImplicit false

namespace Lifeline

variable {below : List Statement} {older : List Diagnostic}

/-! ## Statements beneath open blocks -/

def underneath (below : List Statement) : List Frame → List Statement → List Statement
  | [], statements => statements ++ below
  | _ :: _, statements => statements

namespace Frame

def onto (below : List Statement) : List Frame → List Frame
  | [] => []
  | frame :: frames =>
    { frame with before := underneath below frames frame.before } :: onto below frames

end Frame

theorem underneath_cons (frames : List Frame) (statement : Statement) (statements : List Statement) :
    underneath below frames (statement :: statements) =
      statement :: underneath below frames statements := by
  cases frames <;> rfl

theorem underneath_append (frames : List Frame) (newer statements : List Statement) :
    underneath below frames (newer ++ statements) = newer ++ underneath below frames statements := by
  cases frames with
  | nil => exact List.append_assoc _ _ _
  | cons => rfl

def Diagram.onto (below : List Statement) (diagram : Diagram) : Diagram :=
  { diagram with statements := below.reverse ++ diagram.statements }

/-- What belongs beneath the next diagram, after some others: nothing, unless it is the first. -/
def pending (below : List Statement) : List Diagram → List Statement
  | [] => below
  | _ :: _ => []

namespace Parsing

variable {parsing : Parsing} {token opened : Token} {reached : Nat}

/-- The machine with other statements before all that its first diagram holds, newest first, and with
other reports before its own. -/
def onto (below : List Statement) (older : List Diagnostic) (parsing : Parsing) : Parsing :=
  { parsing with
    frames := Frame.onto (pending below parsing.diagrams) parsing.frames
    statements := underneath (pending below parsing.diagrams) parsing.frames parsing.statements
    diagrams := parsing.diagrams.modifyLast (Diagram.onto below)
    issues := parsing.issues ++ older }

/-! ## Steps -/

theorem onto_accept (parsing : Parsing) (leaf : Leaf) :
    (parsing.accept leaf).onto below older = (parsing.onto below older).accept leaf := by
  simp only [accept, onto, underneath_append, List.append_assoc]

theorem onto_push (parsing : Parsing) (block : Block) (token : Token) :
    (parsing.push block token).onto below older = (parsing.onto below older).push block token := by
  unfold push onto
  dsimp only
  split <;> rfl

/-- The innermost block is split and closed with what stands before it. -/
theorem frames_onto {frame : Frame} {frames : List Frame}
    (innermost : parsing.frames = frame :: frames) :
    (parsing.onto below older).frames =
      { frame with before := underneath (pending below parsing.diagrams) frames frame.before } ::
        Frame.onto (pending below parsing.diagrams) frames := by
  rw [onto, innermost]
  rfl

theorem statements_onto {frame : Frame} {frames : List Frame}
    (innermost : parsing.frames = frame :: frames) :
    (parsing.onto below older).statements = parsing.statements := by
  rw [onto, innermost]
  rfl

theorem onto_split {frame : Frame} {frames : List Frame} (innermost : parsing.frames = frame :: frames)
    (token : Token) (reached : Nat) :
    (parsing.split frame frames token reached).onto below older =
      (parsing.onto below older).split
        { frame with before := underneath (pending below parsing.diagrams) frames frame.before }
        (Frame.onto (pending below parsing.diagrams) frames) token reached := by
  rw [split, split, statements_onto innermost]
  rfl

theorem onto_pop {frame : Frame} {frames : List Frame} (innermost : parsing.frames = frame :: frames)
    (reached : Nat) :
    (parsing.pop frame frames reached).onto below older =
      (parsing.onto below older).pop
        { frame with before := underneath (pending below parsing.diagrams) frames frame.before }
        (Frame.onto (pending below parsing.diagrams) frames) reached := by
  rw [pop, pop, statements_onto innermost, onto, underneath_cons]
  rfl

theorem abandon_onto (current : Token) (reached : Nat) (frames : List Frame)
    (statements : List Statement) (issues : List Diagnostic) :
    abandon current reached (Frame.onto below frames) (underneath below frames statements)
        (issues ++ older) =
      ((abandon current reached frames statements issues).1 ++ below,
        (abandon current reached frames statements issues).2 ++ older) := by
  induction frames generalizing statements issues with
  | nil => rfl
  | cons frame frames ih =>
    rw [abandon, ← ih, underneath_cons]
    rfl

theorem modifyLast_onto (diagram : Diagram) (diagrams : List Diagram) :
    (diagram :: diagrams).modifyLast (Diagram.onto below) =
      diagram.onto (pending below diagrams) :: diagrams.modifyLast (Diagram.onto below) := by
  cases diagrams with
  | nil => exact List.modifyLast_concat _ diagram []
  | cons earlier diagrams =>
    exact List.modifyLast_append_of_right_ne_nil _ [diagram] _ (List.cons_ne_nil _ _)

theorem onto_finish (parsing : Parsing) (opened current : Token) (reached : Nat) :
    (parsing.finish opened current reached).onto below older =
      (parsing.onto below older).finish opened current reached := by
  unfold finish onto
  dsimp only
  rw [abandon_onto, modifyLast_onto, Diagram.onto, List.reverse_append]
  split <;> rfl

theorem onto_inside (parsing : Parsing) (opened token : Token) (reached : Nat) :
    (parsing.inside opened token reached).onto below older =
      (parsing.onto below older).inside opened token reached := by
  unfold inside
  cases innermost : parsing.frames with
  | nil =>
    have none : (parsing.onto below older).frames = [] := by
      rw [onto, innermost]
      rfl
    rw [none]
    cases token.kind with
    | endUml => exact onto_finish _ _ _ _
    | opener block => exact onto_push _ _ _
    | _ => exact onto_accept _ _
  | cons frame frames =>
    rw [frames_onto innermost]
    cases token.kind with
    | endUml => exact onto_finish _ _ _ _
    | opener block => exact onto_push _ _ _
    | endMark => exact onto_pop innermost _
    | _ =>
      dsimp only
      split
      · exact onto_split innermost _ _
      · exact onto_accept _ _

theorem onto_outside (parsing : Parsing) (token : Token) :
    (parsing.outside token).onto below older = (parsing.onto below older).outside token := by
  unfold outside
  split <;> rfl

theorem onto_step (parsing : Parsing) (token : Token) :
    (parsing.step token).onto below older = (parsing.onto below older).step token := by
  cases inside : parsing.diagram with
  | none =>
    have inside' : (parsing.onto below older).diagram = none := inside
    rw [step_outside inside, step_outside inside']
    exact onto_outside _ _
  | some opened =>
    have inside' : (parsing.onto below older).diagram = some opened := inside
    rw [step_inside inside, step_inside inside']
    exact onto_inside _ _ _ _

/-! ## Runs -/

theorem onto_run (parsing : Parsing) :
    parsing.run.onto below older = (parsing.onto below older).run := by
  induction parsing using run_induct with
  | done parsing nothing =>
    have nothing' : (parsing.onto below older).skipSeparators.stream.ahead = [] := nothing
    rw [run_of_nil nothing, run_of_nil nothing']
    rfl
  | round parsing token rest ahead ih =>
    have ahead' : (parsing.onto below older).skipSeparators.stream.ahead = token :: rest := ahead
    rw [run_of_cons ahead, run_of_cons ahead', ih, onto_step]
    rfl

theorem onto_complete (parsing : Parsing) :
    parsing.complete.onto below older = (parsing.onto below older).complete := by
  unfold complete
  cases inside : parsing.diagram with
  | none =>
    have outside : (parsing.onto below older).diagram = none := inside
    rw [outside]
  | some opened =>
    have inside' : (parsing.onto below older).diagram = some opened := inside
    rw [inside']
    exact onto_finish _ _ _ _

end Parsing

end Lifeline
