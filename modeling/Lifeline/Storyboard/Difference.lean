import Lifeline.Storyboard.Basic

/-! What changed between two storyboards. Actions are compared place by place. -/

set_option autoImplicit false

namespace Lifeline

structure BoardDifference where
  /-- New actors in the new order, and missing ones in the old order. -/
  actorsAdded : List String
  actorsRemoved : List String
  actionsAdded : List Nat
  actionsRemoved : List Nat
  actionsModified : List Nat
  modeChanged : Bool
  titleChanged : Bool
  deriving DecidableEq, Repr

namespace BoardDifference

def modifiedFrom (place : Nat) : List Action → List Action → List Nat
  | old :: olds, new :: news =>
    if old = new then modifiedFrom (place + 1) olds news
    else place :: modifiedFrom (place + 1) olds news
  | _, _ => []

def between (old new : Storyboard) : BoardDifference where
  actorsAdded := new.actors.names.filter (!old.actors.names.contains ·)
  actorsRemoved := old.actors.names.filter (!new.actors.names.contains ·)
  actionsAdded := List.range' old.actions.length (new.actions.length - old.actions.length)
  actionsRemoved := List.range' new.actions.length (old.actions.length - new.actions.length)
  actionsModified := modifiedFrom 0 old.actions new.actions
  modeChanged := old.mode != new.mode
  titleChanged := old.title != new.title

/-- Whether the source text can differ. The mode is not part of it. -/
def affectsCode (difference : BoardDifference) : Bool :=
  !difference.actorsAdded.isEmpty || !difference.actorsRemoved.isEmpty ||
    !difference.actionsAdded.isEmpty || !difference.actionsRemoved.isEmpty ||
    !difference.actionsModified.isEmpty || difference.titleChanged

def hasChanges (difference : BoardDifference) : Bool :=
  difference.affectsCode || difference.modeChanged

end BoardDifference

end Lifeline
