import Lifeline.Proofs.Storyboard.Unaffected
import Lifeline.Proofs.Sync.Echo

/-! How far a text can be behind its storyboard.

An engine that finds nothing new in a storyboard leaves the text as it is. Once it has rendered a
storyboard, and as long as nobody else writes to the text, the text is that of a storyboard which the
difference does not tell from the one that the host holds. So the two can be apart in the order of the
actors, and in nothing else. -/

set_option autoImplicit false

namespace Lifeline

open Lifeline.Task (Keeps)

/-- Whether a text is no further behind its storyboard than a difference fails to see. -/
def Contents.KeepsUp (contents : Contents) : Prop :=
  ∃ shown : Storyboard, shown.Unaffected contents.board ∧ contents.text = shown.render

def KeepsText {σ : Type} (held : σ → Contents) (before after : σ) : Prop :=
  (held after).text = (held before).text

/-- Whether an engine knows the text, and the text keeps up with the storyboard that it has seen. -/
structure Session.Rendered {σ : Type} (held : σ → Contents) (session : Session σ) : Prop where
  known : session.engine.syncedCode = some (held session.world).text
  seen : ∃ board, session.engine.syncedBoard = some board ∧
    Contents.KeepsUp { held session.world with board := board }

open Engine
open Session (Rendered)

namespace Host.Stores

variable {σ : Type} {host : Host σ} {held : σ → Contents} {session : Session σ}

theorem rendered_toBoard (stores : host.Stores held) : (toBoard host).Keeps (Rendered held) := by
  intro session rendered
  refine (stores.ends_toBoard (fun _ => rendered) (fun _ world same => ?_)
    (fun _ _ _ _ world same => ?_) fun unknown => absurd rendered.known unknown).mono
    (fun _ _ => id) fun _ _ => False.elim
  all_goals
    refine ⟨?_, ?_⟩ <;> rw [same]
    · exact rendered.known
    · exact rendered.seen

theorem ends_skip (stores : host.Stores held) {synced : Storyboard}
    (awake : session.engine.phase ≠ .paused) (seen : session.engine.syncedBoard = some synced)
    (unaffected : synced.Unaffected (held session.world).board) :
    (toCode host).Ends session
      (fun outcome after => outcome = .unchanged ∧ held after.world = held session.world ∧
        after.engine.syncedCode = session.engine.syncedCode ∧
        after.engine.syncedBoard = some (held session.world).board)
      fun _ _ => False := by
  refine stores.ends_toCode (fun paused => absurd paused awake) fun _ => ?_
  obtain ⟨shown, shows, holds⟩ := stores.board session.world
  refine .bind (.now (.bind (.answered shows (.bind (.engine ?_)))))
  have skipped : session.engine.syncedBoard.any (fun synced =>
      !(BoardDifference.between synced (held session.world).board).affectsCode) = true := by
    rw [seen, Option.any_some, Bool.not_eq_true']
    exact unaffected
  rw [if_pos skipped]
  exact .bind (.modifyEngine (.pure fun _ _ _ kept => ⟨rfl, kept.trans holds, rfl, rfl⟩))

theorem ends_toCode_rendered (stores : host.Stores held) (rendered : Rendered held session) :
    (toCode host).Ends session
      (fun outcome after => Rendered held after ∧
        (outcome ≠ .skipped .paused → (held after.world).KeepsUp))
      fun _ _ => False := by
  refine stores.ends_toCode (fun _ => ⟨rendered, fun awake => absurd rfl awake⟩) fun _ => ?_
  obtain ⟨known, synced, seen, shown, unaffected, text⟩ := rendered
  refine stores.ends_syncCode (fun same world kept phase drained _ kept' => ?_)
    (fun equal world kept phase drained _ kept' => ?_)
    fun _ world _ kept phase drained _ kept' => ?_
  · rw [seen, Option.any_some, Bool.not_eq_true'] at same
    have keepsUp : (held session.world).KeepsUp := ⟨shown, unaffected.trans same, text⟩
    rw [kept'.trans kept]
    refine ⟨⟨?_, (held session.world).board, rfl, ?_⟩, fun _ => keepsUp⟩ <;> rw [kept'.trans kept]
    · exact known
    · exact keepsUp
  · have keepsUp : (held session.world).KeepsUp := ⟨_, .refl _, equal.symm⟩
    rw [kept'.trans kept]
    refine ⟨⟨?_, (held session.world).board, rfl, ?_⟩, fun _ => keepsUp⟩ <;> rw [kept'.trans kept]
    exact keepsUp
  · rw [kept'.trans kept]
    refine ⟨⟨?_, (held session.world).board, rfl, ?_⟩, fun _ => ⟨_, .refl _, rfl⟩⟩ <;>
      rw [kept'.trans kept]
    · rfl
    · exact ⟨_, .refl _, rfl⟩

theorem rendered_toCode (stores : host.Stores held) : (toCode host).Keeps (Rendered held) :=
  fun _ rendered => (stores.ends_toCode_rendered rendered).mono (fun _ _ => And.left)
    fun _ _ => False.elim

theorem rendered_force (stores : host.Stores held) (direction : Direction) :
    (force host direction).Keeps (Rendered held) := by
  cases direction with
  | toBoard =>
    exact .bind (.modifyEngine fun _ rendered => ⟨rendered.known, rendered.seen⟩)
      fun _ => stores.rendered_toBoard
  | toCode =>
    exact .bind (.modifyEngine fun _ rendered => ⟨rendered.known, rendered.seen⟩)
      fun _ => stores.rendered_toCode

theorem rendered_request (direction : Direction) :
    (request host direction).Keeps (Rendered held) := by
  refine .bind .engine fun engine => ?_
  split
  · exact .pure _
  · refine .bind (.now host) fun now => ?_
    cases direction <;>
      exact .bind (.modifyEngine fun _ rendered => ⟨rendered.known, rendered.seen⟩) fun _ => .pure _

theorem rendered_handle (stores : host.Stores held) (event : Event) :
    (handle host event).Keeps (Rendered held) := by
  obtain ⟨_, same⟩ | ⟨_, same | ⟨direction, same⟩⟩ := handle_cases host event <;> rw [same]
  · exact stores.rendered_force _
  · exact stores.rendered_force _
  · exact rendered_request _

theorem rendered_initial (stores : host.Stores held) :
    (Engine.initial host).Keeps (Rendered held) := by
  refine .bind (.now host) fun now =>
    .bind (.modifyEngine fun _ rendered => ⟨rendered.known, rendered.seen⟩) fun _ => .bind ?_ ?_
  · intro session rendered
    obtain ⟨asked, asks, kept⟩ := stores.code session.world
    refine .answered asks ⟨?_, ?_⟩ <;> rw [kept]
    · exact rendered.known
    · exact rendered.seen
  · intro code
    split <;> exact stores.rendered_force _

theorem rendered_poll (stores : host.Stores held) : (poll host).Keeps (Rendered held) := by
  rw [poll_eq]
  refine .bind (.now host) fun now => .bind (keeps_runDue ?_ stores.rendered_toBoard) fun first =>
    .bind (keeps_runDue ?_ stores.rendered_toCode) fun second => .bind (keeps_renewReport ?_)
    fun _ => .pure _
  all_goals intros; rename_i rendered; exact ⟨rendered.known, rendered.seen⟩

theorem rendered_perform (stores : host.Stores held) {call : Call} (routine : call.Routine) :
    (call.perform host).Keeps (Rendered held) := by
  cases call with
  | initial => exact keeps_single stores.rendered_initial
  | event raised => exact keeps_single (stores.rendered_handle raised)
  | request direction => exact keeps_single (rendered_request direction)
  | force direction => exact keeps_single (stores.rendered_force direction)
  | manual direction =>
    cases routine
    rw [Call.perform, manual_toCode]
    exact keeps_single (stores.rendered_force _)
  | poll => exact stores.rendered_poll
  | pause =>
    refine .bind (.modifyEngine fun _ rendered => ?_) fun _ => .pure _
    split <;> exact ⟨rendered.known, rendered.seen⟩
  | resume => exact routine.elim

theorem rendered_of_reaches (stores : host.Stores held) (rendered : Rendered held session)
    {later : List SyncOutcome} {last : Session σ}
    (reached : Reaches host Call.Routine (KeepsText held) session later last) :
    Rendered held last := by
  refine reached.keeps (fun _ => Rendered held) rendered
    (fun _ session _ routine => stores.rendered_perform routine session)
    fun _ session world kept rendered => ⟨?_, ?_⟩
  · exact rendered.known.trans (congrArg some kept.symm)
  · obtain ⟨board, seen, shown, unaffected, text⟩ := rendered.seen
    exact ⟨board, seen, shown, unaffected, Eq.trans kept text⟩

end Host.Stores

/-- Leaving a text as it is because a difference finds nothing new is right as far as the actors keep
their places: then the text would come out the same, and where no two names look alike in a text, only
then. The synchronization that leaves it does not touch the host. Once a text has been written for a
storyboard, and while nobody else writes to it, no synchronization leaves it behind the storyboard by
more than the order of the actors. -/
theorem Engine.toCode_keeps_up {σ : Type} {host : Host σ} {held : σ → Contents}
    (stores : host.Stores held) :
    (∀ old new : Storyboard, (BoardDifference.between old new).affectsCode = false →
      (old.actors = new.actors → old.render = new.render) ∧
      ((old.actors.names.map Render.shown).Nodup → old.render = new.render →
        old.actors = new.actors)) ∧
    (∀ (session : Session σ) (synced : Storyboard), session.engine.phase ≠ .paused →
      session.engine.syncedBoard = some synced →
      (BoardDifference.between synced (held session.world).board).affectsCode = false →
      (toCode host).Ends session
        (fun outcome after => outcome = .unchanged ∧ held after.world = held session.world ∧
          after.engine.syncedBoard = some (held session.world).board)
        fun _ _ => False) ∧
    ∀ session : Session σ, (toCode host).Ends session
      (fun outcome written => outcome.isApplied = true →
        ∀ later last, Reaches host Call.Routine (KeepsText held) written later last →
          (toCode host).Ends last
            (fun outcome after => outcome ≠ .skipped .paused → (held after.world).KeepsUp)
            fun _ _ => False)
      fun _ _ => False := by
  refine ⟨fun old new unaffected => ⟨Storyboard.render_eq_of_actors unaffected,
    fun distinct => (Storyboard.render_eq_iff unaffected distinct).1⟩, ?_, fun session => ?_⟩
  · intro session synced awake seen unaffected
    exact (stores.ends_skip awake seen unaffected).mono
      (fun _ _ skips => ⟨skips.1, skips.2.1, skips.2.2.2⟩) fun _ _ => id
  have written : (toCode host).Ends session
      (fun outcome after => outcome.isApplied = true → Rendered held after) fun _ _ => False := by
    refine stores.ends_toCode (fun _ => nofun) fun _ =>
      stores.ends_syncCode (fun _ _ _ _ _ _ _ => nofun) (fun _ _ _ _ _ _ _ => nofun) ?_
    intro _ world duration holds phase drained _ kept _
    refine ⟨?_, (held session.world).board, rfl, ?_⟩ <;> rw [kept.trans holds]
    · rfl
    · exact ⟨_, .refl _, rfl⟩
  refine written.mono (fun outcome after rendered applied later last reached => ?_) fun _ _ => id
  have rendered := stores.rendered_of_reaches (rendered applied) reached
  exact (stores.ends_toCode_rendered rendered).mono (fun _ _ => And.right) fun _ _ => id

def Notepad.cast (names : List String) : Session Notepad :=
  ⟨.new .default, ⟨0, "", ⟨.ofList names, [], .gui, none⟩, ⟨0, 0⟩⟩⟩

def Session.recast (session : Session Notepad) (names : List String) : Session Notepad :=
  { session with world :=
    { session.world with board := { session.world.board with actors := .ofList names } } }

open Notepad in
theorem Engine.toCode_keeps_up_switched :
    let pad := host (analyzeFor 0)
    let written := toCode pad (cast ["A", "B"])
    let switched : Session Notepad := { written.2 with world :=
      { written.2.world with board := { written.2.world.board with mode := .code } } }
    written.1.toOption = some (.applied .toCode 0) ∧
      (toCode pad switched).1.toOption = some .unchanged ∧
      (toCode pad switched).2.world.held.KeepsUp := by
  intro pad written switched
  have stores : pad.Stores held := stores_host fun _ _ => rfl
  have applied : written.1.toOption = some (.applied .toCode 0) := by decide +kernel
  have unchanged : (toCode pad switched).1.toOption = some .unchanged := by decide +kernel
  refine ⟨applied, unchanged, ?_⟩
  have run := ((toCode_keeps_up stores).2.2 (cast ["A", "B"])).of_ok applied rfl
  exact (run [] switched (.edit switched.world .start rfl)).of_ok unchanged nofun

open Notepad in
/-- Actors that change places go unnoticed, and the text goes on to show them as they stood before. -/
theorem Engine.toCode_keeps_up_reordered :
    let pad := host (analyzeFor 0)
    let written := toCode pad (cast ["A", "B"])
    let reordered := written.2.recast ["B", "A"]
    (BoardDifference.between written.2.world.board reordered.world.board).affectsCode = false ∧
      written.2.world.board.render ≠ reordered.world.board.render ∧
      (toCode pad reordered).1.toOption = some .unchanged ∧
      (toCode pad reordered).2.world.text ≠ (toCode pad reordered).2.world.board.render := by
  decide +kernel

end Lifeline
