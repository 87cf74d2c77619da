import Lifeline.Proofs.Sync.Sound

/-! What becomes of what is scheduled while a synchronization runs.

A synchronization schedules nothing and takes nothing back. What was scheduled when it started still is
when it ends, unless the engine has paused itself meanwhile; then nothing is scheduled any more. -/

set_option autoImplicit false

namespace Lifeline

open Lifeline.Task (Keeps)

namespace Engine

/-- Whether an engine has the given slots, or is paused and has nothing scheduled. -/
def Awaits (code board : Timer) (engine : Engine) : Prop :=
  (engine.codeDebounce = code ∧ engine.boardDebounce = board) ∨
    engine.phase = .paused ∧ engine.codeDebounce.isPending = false ∧
      engine.boardDebounce.isPending = false

theorem awaits_self (engine : Engine) : engine.Awaits engine.codeDebounce engine.boardDebounce :=
  .inl ⟨rfl, rfl⟩

variable {σ : Type} {host : Host σ} {code board : Timer}

abbrev AwaitsIn (code board : Timer) (session : Session σ) : Prop :=
  session.engine.Awaits code board

theorem Awaits.code_of_awake {engine : Engine} (awaits : engine.Awaits code board)
    (awake : engine.phase ≠ .paused) : engine.codeDebounce = code :=
  awaits.elim (·.1) fun halted => absurd halted.1 awake

theorem awaits_countError : (countError host).Keeps (AwaitsIn code board) := by
  refine .bind (.modifyEngine fun _ awaits => awaits) fun _ => .bind .engine fun engine => ?_
  split
  · refine .bind (.modifyEngine fun _ _ => .inr ⟨rfl, ?_, ?_⟩) fun _ => .query _
    · exact Timer.isPending_cancel _
    · exact Timer.isPending_cancel _
  · exact .pure _

theorem awaits_counted {direction : Direction} {task : Task σ SyncOutcome}
    (kept : task.Keeps (AwaitsIn code board)) :
    (counted host direction task).Keeps (AwaitsIn code board) :=
  .recover kept fun _ => .bind awaits_countError fun _ => .pure _

theorem awaits_fallBack (text : String) (reason : ReadFailure) (cursor : Selection) :
    (fallBack host text reason cursor).Keeps (AwaitsIn code board) := by
  refine .bind (.query _) fun shown => .bind (keeps_writeBoard _ _ _) fun _ => ?_
  refine .bind (.modifyEngine fun _ awaits => awaits) fun _ => .bind (.query _) fun shown => ?_
  exact .bind (.modifyEngine fun _ awaits => awaits) fun _ => .pure _

theorem awaits_showDocument (text : String) (document : Document) (cursor : Selection)
    (started : Nat) :
    (showDocument host text document cursor started).Keeps (AwaitsIn code board) := by
  refine .bind (.query _) fun shown => .bind (keeps_writeBoard _ _ _) fun _ => ?_
  refine .bind (.now host) fun finished => .bind (.modifyEngine fun _ awaits => awaits) fun _ => ?_
  refine .bind (.query _) fun shown => ?_
  exact .bind (.modifyEngine fun _ awaits => awaits) fun _ => .pure _

theorem awaits_judge (text : String) (cursor : Selection) (started finished : Nat) (inTime : Bool)
    (result : Except Breakdown Analysis) :
    (judge host text cursor started finished inTime result).Keeps (AwaitsIn code board) := by
  unfold judge judgeBy
  split
  · exact .bind awaits_countError fun _ => awaits_fallBack _ _ _
  · split
    · split
      · exact awaits_showDocument _ _ _ _
      · exact awaits_fallBack _ _ _
    · exact .bind (.modifyEngine fun _ awaits => awaits) fun _ => awaits_fallBack _ _ _

theorem awaits_syncBoard (text : String) (cursor : Selection) :
    (syncBoard host text cursor).Keeps (AwaitsIn code board) := by
  intro session awaits
  apply syncBoard_ends
  · exact fun _ => awaits_fallBack _ _ _ _ awaits
  · exact fun _ => awaits_judge _ _ _ _ _ _ _ awaits

theorem awaits_writeCode (shown : Storyboard) (old new : String) (started : Nat) :
    (writeCode host shown old new started).Keeps (AwaitsIn code board) := by
  refine .bind (.query _) fun cursor => .bind (.command _) fun _ => .bind (.query _) fun _ => ?_
  refine .bind (.command _) fun _ => .bind (.now host) fun finished => ?_
  exact .bind (.modifyEngine fun _ awaits => awaits) fun _ => .pure _

theorem awaits_syncCode : (syncCode host).Keeps (AwaitsIn code board) := by
  refine .bind (.now host) fun started => .bind (.query _) fun shown => .bind .engine fun engine => ?_
  split
  · exact .bind (.modifyEngine fun _ awaits => awaits) fun _ => .pure _
  · refine .bind (.query _) fun old => ?_
    dsimp only
    split
    · exact .bind (.modifyEngine fun _ awaits => awaits) fun _ => .pure _
    · exact awaits_writeCode _ _ _ _

theorem awaits_leave {session : Session σ} {direction : Direction}
    (awaits : session.engine.Awaits code board) :
    (Task.leave (.running direction) session).engine.Awaits code board := by
  unfold Task.leave
  split
  · rename_i running
    exact .inl (awaits.resolve_right fun halted => by rw [running] at halted; cases halted.1)
  · exact awaits

theorem awaits_running {direction : Direction} {task : Task σ SyncOutcome} {session : Session σ}
    (kept : task.Keeps (AwaitsIn code board)) (awaits : session.engine.Awaits code board)
    (awake : session.engine.phase ≠ .paused) :
    (Task.during (.running direction) do
        let outcome ← counted host direction task
        Task.query host.drainEvents
        return outcome).Ends session (fun _ => AwaitsIn code board)
      fun _ => AwaitsIn code board := by
  have runs : (do
      let outcome ← counted host direction task
      Task.query host.drainEvents
      return outcome).Keeps (AwaitsIn code board) :=
    .bind (awaits_counted kept) fun _ => .bind (.query _) fun _ => .pure _
  have kept := awaits.resolve_right fun halted => awake halted.1
  refine .during ((runs _ ?_).mono (fun _ _ => awaits_leave) fun _ _ => awaits_leave)
  exact .inl kept

theorem awaits_toBoard : (toBoard host).Keeps (AwaitsIn code board) := by
  intro session awaits
  refine .bind (.engine ?_)
  split
  · exact awaits
  · rename_i awake
    refine .bind (.query (fun text world _ => .bind (.engine ?_)) fun _ _ _ => awaits)
    split
    · exact awaits
    · refine .bind (.now ?_)
      split
      · exact .bind (.modifyEngine awaits)
      · refine .bind (.query (fun cursor world _ => ?_) fun _ _ _ => awaits)
        exact awaits_running (awaits_syncBoard text cursor) awaits awake

theorem awaits_toCode : (toCode host).Keeps (AwaitsIn code board) := by
  intro session awaits
  refine .bind (.engine ?_)
  split
  · exact awaits
  · rename_i awake
    exact awaits_running awaits_syncCode awaits awake

end Engine

end Lifeline
