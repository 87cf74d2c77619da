import Lifeline.Diagram.Analysis
import Lifeline.Source.Selection
import Lifeline.Storyboard.Basic
import Lifeline.Sync.Direction

/-! What an engine works with: an editor that holds a text and a storyboard, an analyzer and a clock.

A call can change the state of the surroundings and still fail, so each one gives the state after it
together with its result. Every call can break down; the calls that write can also be refused. -/

set_option autoImplicit false

namespace Lifeline

structure Breakdown where
  message : String
  deriving DecidableEq, Repr

inductive Fault where
  | refused (reason : String)
  | broken (breakdown : Breakdown)
  deriving DecidableEq, Repr

inductive Notification where
  | paused (errors : Nat)
  | resumed
  deriving DecidableEq, Repr

inductive Event where
  | textInput | textBlur | actorSelectionChanged | actionChanged | actionAdded | actionRemoved
  | actionReordered
  deriving DecidableEq, Repr

namespace Event

def word : Event → String
  | .textInput => "text-input"
  | .textBlur => "text-blur"
  | .actorSelectionChanged => "actor-selection-changed"
  | .actionChanged => "action-changed"
  | .actionAdded => "action-added"
  | .actionRemoved => "action-removed"
  | .actionReordered => "action-reordered"

def all : List Event :=
  [textInput, textBlur, actorSelectionChanged, actionChanged, actionAdded, actionRemoved,
   actionReordered]

end Event

/-- A call that cannot be refused. -/
abbrev Query (σ α : Type) := σ → Except Breakdown α × σ

/-- A call that can be refused. -/
abbrev Command (σ : Type) := σ → Except Fault Unit × σ

structure Host (σ : Type) where
  /-- The time, in nanoseconds. -/
  now : σ → Nat
  analyze : String → Query σ Analysis
  code : Query σ String
  setCode : String → Command σ
  cursor : Query σ Selection
  setCursor : Selection → Query σ Unit
  board : Query σ Storyboard
  applyBoard : Storyboard → Command σ
  refresh : Command σ
  notify : Notification → Query σ Unit
  drainEvents : Query σ Unit

end Lifeline
