import Lifeline.Proofs.Sync.Parts

/-! Runs of an engine: calls in any order, and in between whatever else happens to its surroundings.

What every call and everything in between keeps holds after every run. -/

set_option autoImplicit false

namespace Lifeline

inductive Call where
  | initial
  | event (raised : Event)
  | request (direction : Direction)
  | force (direction : Direction)
  | manual (direction : Direction)
  | poll
  | pause
  | resume
  deriving DecidableEq, Repr

namespace Call

open Engine (single)

variable {σ : Type}

def perform (host : Host σ) : Call → Task σ (List SyncOutcome)
  | .initial => single (Engine.initial host)
  | .event raised => single (Engine.handle host raised)
  | .request direction => single (Engine.request host direction)
  | .force direction => single (Engine.force host direction)
  | .manual direction => single (Engine.manual host direction)
  | .poll => Engine.poll host
  | .pause => do Engine.pause; return []
  | .resume => single (Engine.resume host)

def outcomes : Except Fault (List SyncOutcome) → List SyncOutcome
  | .ok outcomes => outcomes
  | .error _ => []

end Call

/-- Whether a session can come to be from another one by calls of some kind and edits of some kind,
with all outcomes on the way, oldest first. An edit stands for whatever happens to the surroundings
between calls: somebody writes to the host, or time passes. -/
inductive Reaches {σ : Type} (host : Host σ) (calls : Call → Prop) (edits : σ → σ → Prop)
    (start : Session σ) : List SyncOutcome → Session σ → Prop where
  | start : Reaches host calls edits start [] start
  | call {past : List SyncOutcome} {session : Session σ} (call : Call) :
      Reaches host calls edits start past session → calls call →
      Reaches host calls edits start
        (past ++ Call.outcomes (call.perform host session).1) (call.perform host session).2
  | edit {past : List SyncOutcome} {session : Session σ} (world : σ) :
      Reaches host calls edits start past session → edits session.world world →
      Reaches host calls edits start past { session with world := world }

namespace Reaches

variable {σ : Type} {host : Host σ} {calls : Call → Prop} {edits : σ → σ → Prop}
  {start session : Session σ} {past : List SyncOutcome}

theorem keeps (reached : Reaches host calls edits start past session)
    (holds : List SyncOutcome → Session σ → Prop) (first : holds [] start)
    (call : ∀ past session call, calls call → holds past session →
      (call.perform host).Ends session (fun outcomes => holds (past ++ outcomes)) fun _ => holds past)
    (edit : ∀ past session world, edits session.world world → holds past session →
      holds past { session with world := world }) : holds past session := by
  induction reached with
  | start => exact first
  | @call past session asked _ may ih =>
    have ends := call past session asked may ih
    unfold Task.Ends at ends
    generalize asked.perform host session = ended at ends ⊢
    obtain ⟨reason | outcomes, after⟩ := ended
    · rwa [Call.outcomes, List.append_nil]
    · exact ends
  | edit world _ may ih => exact edit _ _ world may ih

end Reaches

end Lifeline
