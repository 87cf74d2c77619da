import Lifeline.Proofs.Sync.Parts

/-! Hosts that store what they are given, and what synchronizing does to them.

On such a host no call breaks down but the analyzer, and no synchronization ends in a fault. What the
host shows afterwards follows from what has been written last. -/

set_option autoImplicit false

namespace Lifeline

structure Contents where
  text : String
  board : Storyboard
  deriving DecidableEq

/-- A host that stores what it is given and never fails: each call does what it is there for and
leaves all else that the host holds as it is. Of a new storyboard the host may leave out the mode.
Nothing is said of the analyzer but that it reads, nor of the selection. -/
structure Host.Stores {σ : Type} (host : Host σ) (held : σ → Contents) : Prop where
  analyze (source : String) (world : σ) : held (host.analyze source world).2 = held world
  code (world : σ) :
    ∃ after, host.code world = (.ok (held world).text, after) ∧ held after = held world
  setCode (text : String) (world : σ) :
    ∃ after, host.setCode text world = (.ok (), after) ∧
      held after = { held world with text := text }
  cursor (world : σ) :
    ∃ selection after, host.cursor world = (.ok selection, after) ∧ held after = held world
  setCursor (selection : Selection) (world : σ) :
    ∃ after, host.setCursor selection world = (.ok (), after) ∧ held after = held world
  board (world : σ) :
    ∃ after, host.board world = (.ok (held world).board, after) ∧ held after = held world
  applyBoard (board : Storyboard) (world : σ) :
    ∃ after mode, host.applyBoard board world = (.ok (), after) ∧
      held after = { held world with board := { board with mode := mode } } ∧
      (mode = board.mode ∨ mode = (held world).board.mode)
  refresh (world : σ) : ∃ after, host.refresh world = (.ok (), after) ∧ held after = held world
  notify (notification : Notification) (world : σ) :
    ∃ after, host.notify notification world = (.ok (), after) ∧ held after = held world
  drainEvents (world : σ) :
    ∃ after, host.drainEvents world = (.ok (), after) ∧ held after = held world

open Engine

namespace Host.Stores

variable {σ : Type} {host : Host σ} {held : σ → Contents} {session : Session σ} {code : String}
  {cursor : Selection} {value : SyncOutcome → Session σ → Prop} {fault : Fault → Session σ → Prop}

theorem ends_writeBoard (stores : host.Stores held) {board : Storyboard}
    {value : Unit → Session σ → Prop} (mode : board.mode = (held session.world).board.mode)
    (holds : ∀ world, held world = { held session.world with board := board } →
      value () { session with world := world }) :
    (writeBoard host board code cursor).Ends session value fault := by
  obtain ⟨written, kept, applies, holds_written, either⟩ := stores.applyBoard board session.world
  obtain ⟨refreshed, refreshes, holds_refreshed⟩ := stores.refresh written
  obtain ⟨selected, selects, holds_selected⟩ :=
    stores.setCursor (cursor.clamp code.toList) refreshed
  refine .bind (.done applies (.bind (.done refreshes (.answered selects ?_))))
  refine holds selected ?_
  rw [holds_selected, holds_refreshed, holds_written]
  have same : kept = board.mode := either.elim id (·.trans mode.symm)
  rw [same]

theorem ends_fallBack (stores : host.Stores held) {reason : ReadFailure}
    (holds : ∀ world,
      held world = { held session.world with
        board := (extract code).document.project.onto (held session.world).board } →
      value (.fallback reason (extract code).actors.names.length (extract code).messages.length)
        ⟨session.engine.fellBack code reason (held world).board, world⟩) :
    (fallBack host code reason cursor).Ends session value fault := by
  obtain ⟨asked, asks, holds_asked⟩ := stores.board session.world
  refine .bind (.answered asks (.bind (stores.ends_writeBoard ?_ fun written holds_written => ?_)))
  · rw [holds_asked]
    rfl
  · obtain ⟨seen, sees, holds_seen⟩ := stores.board written
    refine .bind (.modifyEngine (.bind (.answered sees (.bind (.modifyEngine (.pure ?_))))))
    have shows := holds seen (by rw [holds_seen, holds_written, holds_asked])
    rw [holds_seen] at shows
    exact shows

theorem ends_showDocument (stores : host.Stores held) {document : Document} {started : Nat}
    (holds : ∀ world duration,
      held world = { held session.world with
        board := document.project.onto (held session.world).board } →
      value (.applied .toBoard duration)
        ⟨session.engine.showed code document (held world).board duration, world⟩) :
    (showDocument host code document cursor started).Ends session value fault := by
  obtain ⟨asked, asks, holds_asked⟩ := stores.board session.world
  refine .bind (.answered asks (.bind (stores.ends_writeBoard ?_ fun written holds_written => ?_)))
  · rw [holds_asked]
    rfl
  · obtain ⟨seen, sees, holds_seen⟩ := stores.board written
    refine .bind (.now (.bind (.modifyEngine (.bind (.answered sees (.bind (.modifyEngine ?_)))))))
    have shows := holds seen (host.now written - started) (by
      rw [holds_seen, holds_written, holds_asked])
    rw [holds_seen] at shows
    exact shows

theorem ends_countError (stores : host.Stores held) {value : Unit → Session σ → Prop}
    (holds : ∀ world, held world = held session.world → value () ⟨session.engine.charged, world⟩) :
    (countError host).Ends session value fault := by
  refine .bind (.modifyEngine (.bind (.engine ?_)))
  unfold charged at holds
  split
  · rename_i many
    obtain ⟨told, tells, holds_told⟩ :=
      stores.notify (.paused (session.engine.errorCount + 1)) session.world
    rw [if_pos many] at holds
    exact .bind (.modifyEngine (.answered tells (holds told holds_told)))
  · rename_i few
    rw [if_neg few] at holds
    exact holds session.world rfl

theorem ends_running (stores : host.Stores held) {direction : Direction} {task : Task σ SyncOutcome}
    (runs : task.Ends { session with engine := { session.engine with phase := .running direction } }
      (fun outcome after => ∀ phase world, host.drainEvents after.world = (.ok (), world) →
        held world = held after.world →
        value outcome ⟨{ after.engine with phase := phase }, world⟩)
      fun _ _ => False) :
    (Task.during (.running direction) do
      let outcome ← counted host direction task
      Task.query host.drainEvents
      return outcome).Ends session value fun _ _ => False := by
  refine .during (.bind (.recover (runs.mono (fun outcome after shows => ?_) fun _ _ => False.elim)))
  obtain ⟨drained, drains, holds_drained⟩ := stores.drainEvents after.world
  refine .bind (.answered drains (.pure ?_))
  obtain ⟨phase, left⟩ := Task.exists_leave (.running direction) { after with world := drained }
  rw [left]
  exact shows phase drained drains holds_drained

/-- A synchronization is turned away or left out where nothing is held otherwise than before, or it
runs. What it says is its own outcome then, since it ends in no fault. -/
theorem ends_toBoard (stores : host.Stores held)
    (paused : session.engine.phase = .paused → value (.skipped .paused) session)
    (known : session.engine.syncedCode = some (held session.world).text →
      ∀ world, held world = held session.world → value .unchanged { session with world := world })
    (early : ∀ last, session.engine.lastParseAt = some last →
      host.now (host.code session.world).2 - last < session.engine.config.minParseInterval →
      ∀ metrics world, held world = held session.world →
      value (.skipped .rateLimited) ⟨{ session.engine with metrics := metrics }, world⟩)
    (runs : session.engine.syncedCode ≠ some (held session.world).text → ∀ cursor world,
      host.cursor (host.code session.world).2 = (.ok cursor, world) →
      held world = held session.world →
      (syncBoard host (held session.world).text cursor).Ends
        ⟨{ session.engine with phase := .running .toBoard }, world⟩
        (fun outcome after => ∀ phase world, held world = held after.world →
          value outcome ⟨{ after.engine with phase := phase }, world⟩)
        fun _ _ => False) :
    (toBoard host).Ends session value fun _ _ => False := by
  obtain ⟨asked, asks, holds_asked⟩ := stores.code session.world
  obtain ⟨cursor, placed, places, holds_placed⟩ := stores.cursor asked
  refine .bind (.engine ?_)
  split
  · rename_i paused'
    exact paused paused'
  · refine .bind (.answered asks (.bind (.engine ?_)))
    split
    · rename_i same
      exact known same asked holds_asked
    · rename_i other
      refine .bind (.now ?_)
      split
      · rename_i soon
        obtain ⟨last, present, close⟩ := (Option.any_eq_true _ _).1 soon
        rw [asks] at early
        exact .bind (.modifyEngine (early last present (of_decide_eq_true close) _ asked holds_asked))
      · have placed_eq : host.cursor (host.code session.world).2 = (.ok cursor, placed) := by
          rw [asks]
          exact places
        refine .bind (.answered places (stores.ends_running ?_))
        exact (runs other cursor placed placed_eq (holds_placed.trans holds_asked)).mono
          (fun outcome after shows phase drained _ => shows phase drained) fun _ _ => id

end Host.Stores

end Lifeline
