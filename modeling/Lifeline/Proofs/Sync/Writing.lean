import Lifeline.Proofs.Sync.Storing

/-! What a rendered storyboard does to a host that stores what it is given. -/

set_option autoImplicit false

namespace Lifeline

def Engine.wrote (engine : Engine) (text : String) (board : Storyboard) (duration : Nat) : Engine :=
  { engine with
    metrics := engine.metrics.record .toCode duration
    errorCount := 0
    syncedCode := some text
    syncedBoard := some board }

open Engine

namespace Host.Stores

variable {σ : Type} {host : Host σ} {held : σ → Contents} {session : Session σ}
  {value : SyncOutcome → Session σ → Prop} {fault : Fault → Session σ → Prop}

theorem ends_writeCode (stores : host.Stores held) {board : Storyboard} {old new : String}
    {started : Nat}
    (written : ∀ world duration, held world = { held session.world with text := new } →
      value (.applied .toCode duration) ⟨session.engine.wrote new board duration, world⟩) :
    (writeCode host board old new started).Ends session value fault := by
  obtain ⟨cursor, placed, places, holds_placed⟩ := stores.cursor session.world
  obtain ⟨stored, stores_new, holds_stored⟩ := stores.setCode new placed
  obtain ⟨selected, selects, holds_selected⟩ :=
    stores.setCursor (cursor.shift old.toList new.toList) stored
  obtain ⟨refreshed, refreshes, holds_refreshed⟩ := stores.refresh selected
  refine .bind (.answered places (.bind (.done stores_new (.bind (.answered selects ?_)))))
  refine .bind (.done refreshes (.bind (.now (.bind (.modifyEngine (.pure ?_))))))
  refine written refreshed _ ?_
  rw [holds_refreshed, holds_selected, holds_stored, holds_placed]

/-- A storyboard is left alone if it shows nothing new or renders to the text that there is, and
otherwise its text is written. -/
theorem ends_syncCode (stores : host.Stores held)
    (same : session.engine.syncedBoard.any (fun synced =>
        !(BoardDifference.between synced (held session.world).board).affectsCode) = true →
      ∀ world, held world = held session.world → value .unchanged
        ⟨{ session.engine with syncedBoard := some (held session.world).board }, world⟩)
    (equal : (held session.world).board.render = (held session.world).text →
      ∀ world, held world = held session.world → value .unchanged
        ⟨{ session.engine with
            syncedCode := some (held session.world).text
            syncedBoard := some (held session.world).board }, world⟩)
    (written : (held session.world).board.render ≠ (held session.world).text → ∀ world duration,
      held world = { held session.world with text := (held session.world).board.render } →
      value (.applied .toCode duration)
        ⟨session.engine.wrote (held session.world).board.render (held session.world).board duration,
          world⟩) :
    (syncCode host).Ends session value fault := by
  obtain ⟨shown, shows, holds_shown⟩ := stores.board session.world
  obtain ⟨asked, asks, holds_asked⟩ := stores.code shown
  have kept : held asked = held session.world := holds_asked.trans holds_shown
  rw [holds_shown] at asks
  generalize held session.world = now at *
  refine .bind (.now (.bind (.answered shows (.bind (.engine ?_)))))
  split
  · rename_i alike
    exact .bind (.modifyEngine (.pure (same alike shown holds_shown)))
  · refine .bind (.answered asks ?_)
    generalize now.board.render = new at *
    dsimp only
    split
    · rename_i rendered
      have unchanged := equal rendered asked kept
      rw [← rendered] at unchanged
      exact .bind (.modifyEngine (.pure unchanged))
    · rename_i differs
      refine stores.ends_writeCode fun world duration holds => written differs world duration ?_
      rw [holds]
      exact congrArg (fun contents : Contents => { contents with text := new }) kept

theorem ends_toCode (stores : host.Stores held)
    (paused : session.engine.phase = .paused → value (.skipped .paused) session)
    (runs : session.engine.phase ≠ .paused →
      (syncCode host).Ends { session with engine := { session.engine with phase := .running .toCode } }
        (fun outcome after => ∀ phase world, host.drainEvents after.world = (.ok (), world) →
          held world = held after.world →
          value outcome ⟨{ after.engine with phase := phase }, world⟩)
        fun _ _ => False) :
    (toCode host).Ends session value fun _ _ => False := by
  refine .bind (.engine ?_)
  split
  · rename_i paused'
    exact paused paused'
  · rename_i awake
    exact stores.ends_running (runs awake)

end Host.Stores

end Lifeline
