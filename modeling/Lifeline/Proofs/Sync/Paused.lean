import Lifeline.Proofs.Sync.Run

/-! What a paused engine does: nothing, until it is resumed. -/

set_option autoImplicit false

namespace Lifeline

def Session.Rests {σ : Type} (world : σ) (session : Session σ) : Prop :=
  session.engine.phase = .paused ∧ session.world = world

open Session (Rests)

namespace Engine

variable {σ : Type} {host : Host σ} {direction : Direction} {session : Session σ} {world : σ}

theorem rests_guard (outcome : SyncOutcome) (next : Engine → Task σ SyncOutcome) :
    (do
      let engine ← Task.engine
      if engine.phase = .paused then return outcome else next engine : Task σ SyncOutcome).Keeps
        (Rests world) := by
  intro session rests
  refine .bind (.engine ?_)
  rw [if_pos rests.1]
  exact rests

theorem rests_toBoard : (toBoard host).Keeps (Rests world) := rests_guard _ _

theorem rests_toCode : (toCode host).Keeps (Rests world) := rests_guard _ _

theorem rests_force : (force host direction).Keeps (Rests world) := by
  cases direction with
  | toBoard => exact .bind (.modifyEngine fun _ rests => rests) fun _ => rests_toBoard
  | toCode => exact .bind (.modifyEngine fun _ rests => rests) fun _ => rests_toCode

theorem rests_request : (request host direction).Keeps (Rests world) := rests_guard _ _

theorem rests_manual : (manual host direction).Keeps (Rests world) := by
  unfold manual
  split
  · exact .bind (.modifyEngine fun _ rests => rests) fun _ => rests_force
  · exact rests_force

theorem rests_handle (event : Event) : (handle host event).Keeps (Rests world) := by
  unfold handle
  cases event with
  | textBlur | actionReordered => exact rests_force
  | _ => exact rests_request

theorem rests_poll : (poll host).Keeps (Rests world) := by
  rw [poll_eq]
  refine .bind (.now host) fun now => ?_
  refine .bind (keeps_runDue (fun _ rests => rests) rests_toBoard) fun first => ?_
  refine .bind (keeps_runDue (fun _ rests => rests) rests_toCode) fun second => ?_
  exact .bind (keeps_renewReport fun _ _ rests => rests) fun _ => .pure _

theorem rests_pause : (pause (σ := σ)).Keeps (Rests world) := by
  refine .modifyEngine fun session rests => ?_
  rw [if_pos rests.1]
  exact rests

/-- The first synchronization reads the text before it finds the engine paused. -/
theorem rests_initial (host : Host σ) (paused : session.engine.phase = .paused) :
    (initial host).Ends session (fun _ => Rests (host.code session.world).2)
      fun _ => Rests (host.code session.world).2 := by
  refine .bind (.now (.bind (.modifyEngine (.bind (.query ?_ ?_)))))
  · intro code world called
    rw [called]
    split <;> exact rests_force _ ⟨paused, rfl⟩
  · intro breakdown world called
    rw [called]
    exact ⟨paused, rfl⟩

end Engine

namespace Call

open Engine

variable {σ : Type} {session : Session σ} {world : σ} {call : Call}

theorem rests_perform (host : Host σ) (asked : call ≠ .resume) (later : call ≠ .initial) :
    (call.perform host).Keeps (Rests world) := by
  cases call with
  | initial => exact absurd rfl later
  | event raised => exact keeps_single (rests_handle raised)
  | request direction => exact keeps_single rests_request
  | force direction => exact keeps_single rests_force
  | manual direction => exact keeps_single rests_manual
  | poll => exact rests_poll
  | pause => exact .bind rests_pause fun _ => .pure _
  | resume => exact absurd rfl asked

/-- A paused engine stays paused and writes nothing, whatever is asked of it but to resume. Of its
host it asks no more than the text, and that only for a first synchronization. -/
theorem perform_of_paused (host : Host σ) (asked : call ≠ .resume)
    (paused : session.engine.phase = .paused) :
    (call.perform host session).2.engine.phase = .paused ∧
      ((call.perform host session).2.world = session.world ∨
        call = .initial ∧ (call.perform host session).2.world = (host.code session.world).2) := by
  by_cases first : call = .initial
  · subst first
    have rests := (rests_initial host paused).after
    rw [← snd_single] at rests
    exact ⟨rests.1, .inr ⟨rfl, rests.2⟩⟩
  · have rests := (rests_perform host asked first session ⟨paused, rfl⟩).after
    exact ⟨rests.1, .inl rests.2⟩

end Call

end Lifeline
