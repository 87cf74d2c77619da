import Lifeline.Storyboard.Roster

/-! Storyboards: diagrams as an editor shows them, actors on one side and actions in order. -/

set_option autoImplicit false

namespace Lifeline

inductive Mode where
  | gui | code | split
  deriving DecidableEq, Repr

def Mode.word : Mode → String
  | .gui => "gui"
  | .code => "code"
  | .split => "split"

def Mode.all : List Mode := [.gui, .code, .split]

inductive Action where
  | message (source target text : String)
  | activation (actor : String)
  | deactivation (actor : String)
  /-- The position says on which side of whom the note stands. -/
  | note (position text : String)
  | alt (condition : String) (whenTrue whenFalse : List Action) (otherwise : String)
  | loop (condition : String) (actions : List Action)
  | par (branches : List (List Action))
  | opt (condition : String) (actions : List Action)

namespace Action

mutual

def decEq : (first second : Action) → Decidable (first = second)
  | .message s t x, .message s' t' x' => decidable_of_iff (s = s' ∧ t = t' ∧ x = x') (by simp)
  | .activation a, .activation a' => decidable_of_iff (a = a') (by simp)
  | .deactivation a, .deactivation a' => decidable_of_iff (a = a') (by simp)
  | .note p t, .note p' t' => decidable_of_iff (p = p' ∧ t = t') (by simp)
  | .alt c t f o, .alt c' t' f' o' =>
    match decEqList t t', decEqList f f' with
    | isTrue h, isTrue h' => decidable_of_iff (c = c' ∧ o = o') (by simp [h, h'])
    | isFalse h, _ => isFalse (by simp [h])
    | _, isFalse h => isFalse (by simp [h])
  | .loop c a, .loop c' a' =>
    match decEqList a a' with
    | isTrue h => decidable_of_iff (c = c') (by simp [h])
    | isFalse h => isFalse (by simp [h])
  | .par b, .par b' =>
    match decEqBranches b b' with
    | isTrue h => isTrue (by rw [h])
    | isFalse h => isFalse (by simp [h])
  | .opt c a, .opt c' a' =>
    match decEqList a a' with
    | isTrue h => decidable_of_iff (c = c') (by simp [h])
    | isFalse h => isFalse (by simp [h])
  | .message .., .activation .. | .message .., .deactivation .. | .message .., .note ..
  | .message .., .alt .. | .message .., .loop .. | .message .., .par .. | .message .., .opt ..
  | .activation .., .message .. | .activation .., .deactivation .. | .activation .., .note ..
  | .activation .., .alt .. | .activation .., .loop .. | .activation .., .par ..
  | .activation .., .opt .. | .deactivation .., .message .. | .deactivation .., .activation ..
  | .deactivation .., .note .. | .deactivation .., .alt .. | .deactivation .., .loop ..
  | .deactivation .., .par .. | .deactivation .., .opt .. | .note .., .message ..
  | .note .., .activation .. | .note .., .deactivation .. | .note .., .alt .. | .note .., .loop ..
  | .note .., .par .. | .note .., .opt .. | .alt .., .message .. | .alt .., .activation ..
  | .alt .., .deactivation .. | .alt .., .note .. | .alt .., .loop .. | .alt .., .par ..
  | .alt .., .opt .. | .loop .., .message .. | .loop .., .activation .. | .loop .., .deactivation ..
  | .loop .., .note .. | .loop .., .alt .. | .loop .., .par .. | .loop .., .opt ..
  | .par .., .message .. | .par .., .activation .. | .par .., .deactivation .. | .par .., .note ..
  | .par .., .alt .. | .par .., .loop .. | .par .., .opt .. | .opt .., .message ..
  | .opt .., .activation .. | .opt .., .deactivation .. | .opt .., .note .. | .opt .., .alt ..
  | .opt .., .loop .. | .opt .., .par .. => isFalse (by simp)

def decEqList : (first second : List Action) → Decidable (first = second)
  | [], [] => isTrue rfl
  | [], _ :: _ | _ :: _, [] => isFalse (by simp)
  | a :: as, b :: bs =>
    match decEq a b, decEqList as bs with
    | isTrue h, isTrue h' => isTrue (by rw [h, h'])
    | isFalse h, _ => isFalse (by simp [h])
    | _, isFalse h => isFalse (by simp [h])

def decEqBranches : (first second : List (List Action)) → Decidable (first = second)
  | [], [] => isTrue rfl
  | [], _ :: _ | _ :: _, [] => isFalse (by simp)
  | a :: as, b :: bs =>
    match decEqList a b, decEqBranches as bs with
    | isTrue h, isTrue h' => isTrue (by rw [h, h'])
    | isFalse h, _ => isFalse (by simp [h])
    | _, isFalse h => isFalse (by simp [h])

end

instance : DecidableEq Action := decEq

/-- Whether an action holds others under a condition, a repetition or side by side. -/
def isCondition : Action → Bool
  | .alt .. | .loop .. | .par .. | .opt .. => true
  | _ => false

end Action

structure Storyboard where
  actors : Roster
  actions : List Action
  mode : Mode
  title : Option String
  deriving DecidableEq

namespace Storyboard

def empty : Storyboard := ⟨.empty, [], .gui, none⟩

def isEmpty (board : Storyboard) : Bool :=
  board.actors.names.isEmpty && board.actions.isEmpty && board.title.isNone

def agrees (first second : Storyboard) : Bool :=
  first.actors.sameNames second.actors && first.actions == second.actions &&
    first.mode == second.mode && first.title == second.title

end Storyboard

end Lifeline
