import Lifeline.Proofs.Sync.Shown
import Lifeline.Proofs.Sync.Slots
import Lifeline.Proofs.Sync.Writing

/-! Why an engine does not answer its own writes.

A synchronization that has written something leaves an engine that knows both sides as they are now,
and it forgets the events that its writes raised. From then on, and for as long as nobody else changes
either side, whatever is asked of the engine finds nothing to do, unless it is told to read the text
anew. -/

set_option autoImplicit false

namespace Lifeline

open Lifeline.Task (Keeps)

namespace BoardDifference

theorem modifiedFrom_self (place : Nat) (actions : List Action) :
    modifiedFrom place actions actions = [] := by
  induction actions generalizing place with
  | nil => rfl
  | cons action rest ih => simp [modifiedFrom, ih]

@[simp] theorem affectsCode_between_self (board : Storyboard) :
    (between board board).affectsCode = false := by
  simp [between, affectsCode, modifiedFrom_self]

end BoardDifference

/-- A host that stores and raises events of its own while it is written to. Whatever else is seen of it,
its selection for instance, does not change by asking for the text or the storyboard, nor by forgetting
events. -/
structure Host.Echoes {σ τ : Type} (host : Host σ) (held : σ → Contents) (pending : σ → List Event)
    (seen : σ → τ) : Prop extends host.Stores held where
  pending_code (world : σ) : pending (host.code world).2 = pending world
  pending_board (world : σ) : pending (host.board world).2 = pending world
  pending_drainEvents (world : σ) : pending (host.drainEvents world).2 = []
  seen_code (world : σ) : seen (host.code world).2 = seen world
  seen_board (world : σ) : seen (host.board world).2 = seen world
  seen_drainEvents (world : σ) : seen (host.drainEvents world).2 = seen world

namespace SyncOutcome

def Settles : SyncOutcome → Prop
  | .applied .. => True
  | .fallback reason .. => reason ≠ .attemptsExceeded
  | _ => False

def Calm : SyncOutcome → Prop
  | .unchanged | .skipped _ | .scheduled .. => True
  | _ => False

end SyncOutcome

/-- Calls that do not have the text read anew. -/
def Call.Routine : Call → Prop
  | .manual direction => direction = .toCode
  | .resume => False
  | _ => True

def KeepsContents {σ : Type} (held : σ → Contents) (before after : σ) : Prop :=
  held after = held before

namespace Engine

structure Knows (engine : Engine) (contents : Contents) : Prop where
  code : engine.syncedCode = some contents.text
  board : engine.syncedBoard = some contents.board

/-- Whether an engine has no synchronization scheduled that another one had not. -/
def AddsNothing (before after : Engine) : Prop :=
  (after.codeDebounce.isPending = true → after.codeDebounce = before.codeDebounce) ∧
    (after.boardDebounce.isPending = true → after.boardDebounce = before.boardDebounce)

theorem AddsNothing.refl (engine : Engine) : engine.AddsNothing engine :=
  ⟨fun _ => rfl, fun _ => rfl⟩

theorem AddsNothing.of_awaits {before engine after : Engine} (adds : before.AddsNothing engine)
    (awaits : after.Awaits engine.codeDebounce engine.boardDebounce) : before.AddsNothing after := by
  obtain ⟨code, board⟩ | ⟨_, code, board⟩ := awaits
  · exact ⟨fun pending => code.trans (adds.1 (code ▸ pending)),
      fun pending => board.trans (adds.2 (board ▸ pending))⟩
  · exact ⟨fun pending => absurd (code.symm.trans pending) nofun,
      fun pending => absurd (board.symm.trans pending) nofun⟩

end Engine

/-- Whether all that is seen of a host is as it was in other surroundings, and its engine knows both
sides. -/
structure Session.Undisturbed {σ τ : Type} (held : σ → Contents) (pending : σ → List Event)
    (seen : σ → τ) (before : σ) (after : Session σ) : Prop where
  held_eq : held after.world = held before
  seen_eq : seen after.world = seen before
  knows : after.engine.Knows (held after.world)
  drained : pending before = [] → pending after.world = []

open Engine
open Session (Undisturbed)

namespace Session.Undisturbed

variable {σ τ : Type} {held : σ → Contents} {pending : σ → List Event} {seen : σ → τ}

theorem refl {session : Session σ} (knows : session.engine.Knows (held session.world)) :
    Undisturbed held pending seen session.world session :=
  ⟨rfl, rfl, knows, id⟩

theorem trans {before : σ} {session after : Session σ}
    (first : Undisturbed held pending seen before session)
    (second : Undisturbed held pending seen session.world after) :
    Undisturbed held pending seen before after where
  held_eq := second.held_eq.trans first.held_eq
  seen_eq := second.seen_eq.trans first.seen_eq
  knows := second.knows
  drained := second.drained ∘ first.drained

end Session.Undisturbed

namespace Host.Echoes

variable {σ τ : Type} {host : Host σ} {held : σ → Contents} {pending : σ → List Event}
  {seen : σ → τ} {session : Session σ}

/-! ## What is asked of an engine that knows both sides -/

theorem quiet_toBoard (echoes : host.Echoes held pending seen)
    (knows : session.engine.Knows (held session.world)) :
    (toBoard host).Ends session
      (fun outcome after => outcome.Calm ∧ Undisturbed held pending seen session.world after)
      fun _ _ => False := by
  obtain ⟨asked, asks, holds_asked⟩ := echoes.code session.world
  refine .bind (.engine ?_)
  split
  · exact ⟨trivial, .refl knows⟩
  · refine .bind (.answered asks (.bind (.engine ?_)))
    rw [if_pos knows.code]
    have pending_asked := echoes.pending_code session.world
    have seen_asked := echoes.seen_code session.world
    rw [asks] at pending_asked seen_asked
    refine ⟨trivial, holds_asked, seen_asked, ?_, pending_asked.trans⟩
    rw [holds_asked]
    exact knows

theorem quiet_toCode (echoes : host.Echoes held pending seen)
    (knows : session.engine.Knows (held session.world)) :
    (toCode host).Ends session
      (fun outcome after => outcome.Calm ∧ Undisturbed held pending seen session.world after)
      fun _ _ => False := by
  obtain ⟨shown, shows, holds_shown⟩ := echoes.board session.world
  refine echoes.ends_toCode (fun _ => ⟨trivial, .refl knows⟩) fun _ => ?_
  refine .bind (.now (.bind (.answered shows (.bind (.engine ?_)))))
  have alike : session.engine.syncedBoard.any (fun synced =>
      !(BoardDifference.between synced (held session.world).board).affectsCode) = true := by
    simp [knows.board]
  rw [if_pos alike]
  refine .bind (.modifyEngine (.pure fun phase world drains holds_drained => ?_))
  have seen_shown := echoes.seen_board session.world
  have seen_drained := echoes.seen_drainEvents shown
  have drained := echoes.pending_drainEvents shown
  rw [shows] at seen_shown
  rw [drains] at seen_drained drained
  have kept : held world = held session.world := holds_drained.trans holds_shown
  refine ⟨trivial, kept, seen_drained.trans seen_shown, ?_, fun _ => drained⟩
  rw [kept]
  exact ⟨knows.code, rfl⟩

theorem quiet_force (echoes : host.Echoes held pending seen) {direction : Direction}
    (knows : session.engine.Knows (held session.world)) :
    (force host direction).Ends session
      (fun outcome after => outcome.Calm ∧ Undisturbed held pending seen session.world after)
      fun _ _ => False := by
  cases direction with
  | toBoard => exact .bind (.modifyEngine (echoes.quiet_toBoard ⟨knows.code, knows.board⟩))
  | toCode => exact .bind (.modifyEngine (echoes.quiet_toCode ⟨knows.code, knows.board⟩))

theorem quiet_request {direction : Direction}
    (knows : session.engine.Knows (held session.world)) :
    (request host direction).Ends session
      (fun outcome after => outcome.Calm ∧ Undisturbed held pending seen session.world after)
      fun _ _ => False := by
  refine .bind (.engine ?_)
  split
  · exact ⟨trivial, .refl knows⟩
  · refine .bind (.now ?_)
    cases direction <;>
      exact .bind (.modifyEngine ⟨trivial, rfl, rfl, ⟨knows.code, knows.board⟩, id⟩)

theorem quiet_handle (echoes : host.Echoes held pending seen) (event : Event)
    (knows : session.engine.Knows (held session.world)) :
    (handle host event).Ends session
      (fun outcome after => outcome.Calm ∧ Undisturbed held pending seen session.world after)
      fun _ _ => False := by
  obtain ⟨_, same⟩ | ⟨_, same | ⟨direction, same⟩⟩ := handle_cases host event <;> rw [same]
  · exact echoes.quiet_force knows
  · exact echoes.quiet_force knows
  · exact quiet_request knows

theorem quiet_initial (echoes : host.Echoes held pending seen)
    (knows : session.engine.Knows (held session.world)) :
    (initial host).Ends session
      (fun outcome after => outcome.Calm ∧ Undisturbed held pending seen session.world after)
      fun _ _ => False := by
  obtain ⟨asked, asks, holds_asked⟩ := echoes.code session.world
  have pending_asked := echoes.pending_code session.world
  have seen_asked := echoes.seen_code session.world
  rw [asks] at pending_asked seen_asked
  refine .bind (.now (.bind (.modifyEngine (.bind (.answered asks ?_)))))
  rw [← holds_asked] at knows
  have before : Undisturbed held pending seen session.world ⟨session.engine, asked⟩ :=
    ⟨holds_asked, seen_asked, knows, pending_asked.trans⟩
  split <;>
    · refine (echoes.quiet_force ?_).mono (fun _ _ calm => ⟨calm.1, before.trans calm.2⟩) fun _ _ => id
      exact ⟨knows.code, knows.board⟩

theorem quiet_poll (echoes : host.Echoes held pending seen)
    (knows : session.engine.Knows (held session.world)) :
    (poll host).Ends session
      (fun outcomes after => (∀ outcome ∈ outcomes, outcome.Calm) ∧
        Undisturbed held pending seen session.world after)
      fun _ _ => False := by
  have due {timer : Engine → Timer} {update : Engine → Timer → Engine} {now : Nat}
      {sync : Task σ SyncOutcome} {session : Session σ}
      (knows : ∀ left, (update session.engine left).Knows (held session.world))
      (quiet : ∀ left, sync.Ends { session with engine := update session.engine left }
        (fun outcome after => outcome.Calm ∧ Undisturbed held pending seen session.world after)
        fun _ _ => False) :
      (runDue timer update now sync).Ends session
        (fun outcomes after => (∀ outcome ∈ outcomes, outcome.Calm) ∧
          Undisturbed held pending seen session.world after)
        fun _ _ => False := by
    refine runDue_ends ⟨nofun, rfl, rfl, knows _, id⟩ ?_
    refine (quiet _).mono (fun outcome after calm => ⟨?_, calm.2⟩) fun _ _ => id
    exact List.forall_mem_singleton.2 calm.1
  rw [poll_eq]
  refine .bind (.now (.bind ?_))
  refine (due (fun _ => ⟨knows.code, knows.board⟩) fun _ =>
    echoes.quiet_toBoard ⟨knows.code, knows.board⟩).mono (fun first between calm => ?_) fun _ _ => id
  have knows := calm.2.knows
  refine .bind ?_
  refine (due (fun _ => ⟨knows.code, knows.board⟩) fun _ =>
    echoes.quiet_toCode ⟨knows.code, knows.board⟩).mono (fun second after calm' => ?_) fun _ _ => id
  refine .bind (renewReport_ends fun timer => ⟨?_, ?_⟩)
  · exact List.forall_mem_append.2 ⟨calm.1, calm'.1⟩
  · obtain ⟨held_eq, seen_eq, knows, drained⟩ := calm.2.trans calm'.2
    exact ⟨held_eq, seen_eq, ⟨knows.code, knows.board⟩, drained⟩

theorem quiet_perform (echoes : host.Echoes held pending seen) {call : Call}
    (routine : call.Routine) (knows : session.engine.Knows (held session.world)) :
    (call.perform host).Ends session
      (fun outcomes after => (∀ outcome ∈ outcomes, outcome.Calm) ∧
        Undisturbed held pending seen session.world after)
      fun _ _ => False := by
  have one {task : Task σ SyncOutcome}
      (quiet : task.Ends session
        (fun outcome after => outcome.Calm ∧ Undisturbed held pending seen session.world after)
        fun _ _ => False) :
      (single task).Ends session
        (fun outcomes after => (∀ outcome ∈ outcomes, outcome.Calm) ∧
          Undisturbed held pending seen session.world after)
        fun _ _ => False :=
    single_ends (quiet.mono
      (fun _ _ calm => ⟨List.forall_mem_singleton.2 calm.1, calm.2⟩) fun _ _ => id)
  cases call with
  | initial => exact one (echoes.quiet_initial knows)
  | event raised => exact one (echoes.quiet_handle raised knows)
  | request direction => exact one (quiet_request knows)
  | force direction => exact one (echoes.quiet_force knows)
  | manual direction =>
    cases routine
    rw [Call.perform, manual_toCode]
    exact one (echoes.quiet_force knows)
  | poll => exact echoes.quiet_poll knows
  | pause =>
    refine .bind (.modifyEngine ⟨nofun, rfl, rfl, ?_, id⟩)
    split <;> exact ⟨knows.code, knows.board⟩
  | resume => exact routine.elim

/-- Nothing that is routine disturbs a host whose engine knows both sides, however often it is asked. -/
theorem undisturbed_of_reaches (echoes : host.Echoes held pending seen)
    (knows : session.engine.Knows (held session.world)) {later : List SyncOutcome} {last : Session σ}
    (reached : Reaches host Call.Routine (KeepsContents held) session later last) :
    (∀ outcome ∈ later, outcome.Calm) ∧ held last.world = held session.world ∧
      last.engine.Knows (held last.world) := by
  refine reached.keeps (fun later last => (∀ outcome ∈ later, outcome.Calm) ∧
    held last.world = held session.world ∧ last.engine.Knows (held last.world))
    ⟨nofun, rfl, knows⟩ (fun later last call routine quiet => ?_) fun later last world kept quiet => ?_
  · obtain ⟨calm, same, knows⟩ := quiet
    refine (echoes.quiet_perform routine knows).mono (fun outcomes after quiet => ?_)
      fun _ _ => False.elim
    refine ⟨List.forall_mem_append.2 ⟨calm, quiet.1⟩, quiet.2.held_eq.trans same, quiet.2.knows⟩
  · obtain ⟨calm, same, knows⟩ := quiet
    have kept : held world = held last.world := kept
    refine ⟨calm, kept.trans same, ?_⟩
    rw [kept]
    exact knows

/-! ## What a synchronization leaves that has written -/

/-- Whether an engine knows both sides and its host has no events to tell. -/
def InStep (held : σ → Contents) (pending : σ → List Event) (session : Session σ) : Prop :=
  session.engine.Knows (held session.world) ∧ pending session.world = []

theorem drained_running (echoes : host.Echoes held pending seen) {direction : Direction}
    {task : Task σ SyncOutcome} :
    (Task.during (.running direction) do
        let outcome ← counted host direction task
        Task.query host.drainEvents
        return outcome).Ends session (fun _ after => pending after.world = []) fun _ _ => True := by
  refine .during (.bind ((Task.Ends.trivial _ _).mono (fun outcome after _ => ?_) fun _ _ => id))
  refine .bind (.query (fun _ drained drains => .pure ?_) fun _ _ _ => True.intro)
  obtain ⟨phase, left⟩ := Task.exists_leave (.running direction) { after with world := drained }
  have empty := echoes.pending_drainEvents after.world
  rw [drains] at empty
  rw [left]
  exact empty

theorem drained_toBoard (echoes : host.Echoes held pending seen) :
    (toBoard host).Ends session (fun outcome after => outcome.Settles → pending after.world = [])
      fun _ _ => True := by
  refine .bind (.engine ?_)
  split
  · exact nofun
  · refine .bind (.query (fun text world _ => .bind (.engine ?_)) fun _ _ _ => True.intro)
    split
    · exact nofun
    · refine .bind (.now ?_)
      split
      · exact .bind (.modifyEngine nofun)
      · refine .bind (.query (fun cursor world _ => ?_) fun _ _ _ => True.intro)
        exact echoes.drained_running.mono (fun _ _ drained _ => drained) fun _ _ => id

theorem knows_toBoard (stores : host.Stores held) :
    (toBoard host).Ends session
      (fun outcome after => outcome.Settles → after.engine.Knows (held after.world))
      fun _ _ => False := by
  refine stores.ends_toBoard (fun _ => nofun) (fun _ _ _ => nofun) (fun _ _ _ _ _ _ => nofun) ?_
  intro _ cursor world _ same
  have text : some (held session.world).text = some (held world).text := by rw [same]
  refine stores.ends_syncBoard ?_ ?_
  · intro document _ engine shown duration _ holds phase drained kept _
    rw [kept, holds]
    exact ⟨text, rfl⟩
  · intro reason _ engine shown _ holds phase drained kept settles
    rw [kept, holds]
    exact ⟨(if_neg settles).trans text, rfl⟩

theorem knows_toCode (stores : host.Stores held) :
    (toCode host).Ends session
      (fun outcome after => outcome.Settles → after.engine.Knows (held after.world))
      fun _ _ => False := by
  refine stores.ends_toCode (fun _ => nofun) fun _ => ?_
  refine stores.ends_syncCode (fun _ _ _ _ _ _ _ => nofun) (fun _ _ _ _ _ _ _ => nofun) ?_
  intro _ world duration holds phase drained _ kept _
  rw [kept, holds]
  exact ⟨rfl, rfl⟩

theorem settles_toBoard (echoes : host.Echoes held pending seen) :
    (toBoard host).Ends session (fun outcome after => outcome.Settles → InStep held pending after)
      fun _ _ => False :=
  ((knows_toBoard echoes.toStores).and echoes.drained_toBoard).mono
    (fun _ _ both settles => ⟨both.1 settles, both.2 settles⟩) fun _ _ both => both.1

theorem settles_toCode (echoes : host.Echoes held pending seen) :
    (toCode host).Ends session (fun outcome after => outcome.Settles → InStep held pending after)
      fun _ _ => False := by
  have drained : (toCode host).Ends session
      (fun outcome after => outcome.Settles → pending after.world = []) fun _ _ => True := by
    refine .bind (.engine ?_)
    split
    · exact nofun
    · exact echoes.drained_running.mono (fun _ _ drained _ => drained) fun _ _ => id
  exact ((knows_toCode echoes.toStores).and drained).mono
    (fun _ _ both settles => ⟨both.1 settles, both.2 settles⟩) fun _ _ both => both.1

theorem settles_force (echoes : host.Echoes held pending seen) {direction : Direction} :
    (force host direction).Ends session
      (fun outcome after => outcome.Settles → InStep held pending after) fun _ _ => False := by
  cases direction with
  | toBoard => exact .bind (.modifyEngine echoes.settles_toBoard)
  | toCode => exact .bind (.modifyEngine echoes.settles_toCode)

theorem settles_request {direction : Direction} :
    (request host direction).Ends session
      (fun outcome after => outcome.Settles → InStep held pending after) fun _ _ => False := by
  refine .bind (.engine ?_)
  split
  · exact nofun
  · refine .bind (.now ?_)
    cases direction <;> exact .bind (.modifyEngine nofun)

theorem settles_poll (echoes : host.Echoes held pending seen) :
    (poll host).Ends session
      (fun outcomes after => (∃ outcome ∈ outcomes, outcome.Settles) → InStep held pending after)
      fun _ _ => False := by
  have finishes {now : Nat} {first : List SyncOutcome} {between : Session σ}
      (settled : (∃ outcome ∈ first, outcome.Settles) → InStep held pending between) :
      (do
        let second ← runDue boardDebounce ({ · with boardDebounce := · }) now (toCode host)
        renewReport now
        return first ++ second).Ends between
        (fun outcomes after => (∃ outcome ∈ outcomes, outcome.Settles) → InStep held pending after)
        fun _ _ => False := by
    refine .bind (runDue_ends (.bind (renewReport_ends fun timer => ?_)) ?_)
    · rintro ⟨outcome, member, settles⟩
      rw [List.append_nil] at member
      obtain ⟨knows, drained⟩ := settled ⟨outcome, member, settles⟩
      exact ⟨⟨knows.code, knows.board⟩, drained⟩
    · by_cases before : ∃ outcome ∈ first, outcome.Settles
      · obtain ⟨knows, drained⟩ := settled before
        refine (echoes.quiet_toCode ?_).mono (fun outcome after calm => ?_) fun _ _ => id
        · exact ⟨knows.code, knows.board⟩
        refine .bind (renewReport_ends fun timer _ => ⟨?_, calm.2.drained drained⟩)
        exact ⟨calm.2.knows.code, calm.2.knows.board⟩
      · refine echoes.settles_toCode.mono (fun outcome after settled => ?_) fun _ _ => id
        refine .bind (renewReport_ends fun timer => ?_)
        rintro ⟨other, member, settles⟩
        obtain member | rfl := List.mem_append.1 member |>.imp_right List.mem_singleton.1
        · exact absurd ⟨other, member, settles⟩ before
        · obtain ⟨knows, drained⟩ := settled settles
          exact ⟨⟨knows.code, knows.board⟩, drained⟩
  rw [poll_eq]
  refine .bind (.now (.bind (runDue_ends (finishes ?_) ?_)))
  · rintro ⟨outcome, member, _⟩
    cases member
  · refine echoes.settles_toBoard.mono (fun outcome between settled => finishes ?_) fun _ _ => id
    rintro ⟨other, member, settles⟩
    cases List.mem_singleton.1 member
    exact settled settles

theorem settles_perform (echoes : host.Echoes held pending seen) (call : Call) :
    (call.perform host).Ends session
      (fun outcomes after => (∃ outcome ∈ outcomes, outcome.Settles) → InStep held pending after)
      fun _ _ => False := by
  have one {task : Task σ SyncOutcome}
      (settles : task.Ends session
        (fun outcome after => outcome.Settles → InStep held pending after) fun _ _ => False) :
      (single task).Ends session
        (fun outcomes after => (∃ outcome ∈ outcomes, outcome.Settles) → InStep held pending after)
        fun _ _ => False := by
    refine single_ends (settles.mono (fun outcome after settled => ?_) fun _ _ => id)
    rintro ⟨other, member, settles⟩
    cases List.mem_singleton.1 member
    exact settled settles
  cases call with
  | initial =>
    obtain ⟨asked, asks, _⟩ := echoes.code session.world
    refine one (.bind (.now (.bind (.modifyEngine (.bind (.answered asks ?_))))))
    split <;> exact echoes.settles_force
  | event raised =>
    refine one ?_
    obtain ⟨_, same⟩ | ⟨_, same | ⟨direction, same⟩⟩ := handle_cases host raised <;> rw [same]
    · exact echoes.settles_force
    · exact echoes.settles_force
    · exact settles_request
  | request direction => exact one settles_request
  | force direction => exact one echoes.settles_force
  | manual direction =>
    refine one ?_
    unfold manual
    split
    · exact .bind (.modifyEngine echoes.settles_force)
    · exact echoes.settles_force
  | poll => exact echoes.settles_poll
  | pause => exact .bind (.modifyEngine fun ⟨_, member, _⟩ => nomatch member)
  | resume =>
    obtain ⟨told, tells, _⟩ := echoes.notify .resumed session.world
    exact one (.bind (.modifyEngine (.bind (.answered tells echoes.settles_force))))

end Host.Echoes

namespace Engine

variable {σ τ : Type} {host : Host σ} {held : σ → Contents} {pending : σ → List Event}
  {seen : σ → τ} {before : Engine}

/-! ## What a call adds to what is scheduled -/

abbrev AddsNothingIn (before : Engine) (session : Session σ) : Prop :=
  before.AddsNothing session.engine

theorem adds_toBoard : (toBoard host).Keeps (AddsNothingIn before) := fun session adds =>
  (awaits_toBoard session (awaits_self session.engine)).mono (fun _ _ => adds.of_awaits)
    fun _ _ => adds.of_awaits

theorem adds_toCode : (toCode host).Keeps (AddsNothingIn before) := fun session adds =>
  (awaits_toCode session (awaits_self session.engine)).mono (fun _ _ => adds.of_awaits)
    fun _ _ => adds.of_awaits

theorem adds_force {direction : Direction} :
    (force host direction).Keeps (AddsNothingIn before) := by
  cases direction with
  | toBoard =>
    refine .bind (.modifyEngine fun session adds => ⟨fun pending => ?_, adds.2⟩) fun _ => adds_toBoard
    exact absurd ((Timer.isPending_cancel _).symm.trans pending) nofun
  | toCode =>
    refine .bind (.modifyEngine fun session adds => ⟨adds.1, fun pending => ?_⟩) fun _ => adds_toCode
    exact absurd ((Timer.isPending_cancel _).symm.trans pending) nofun

theorem takeDue_of_isPending {timer : Timer} {now : Nat}
    (pending : (timer.takeDue now).2.isPending = true) : (timer.takeDue now).2 = timer := by
  unfold Timer.takeDue at *
  split
  · rfl
  · split
    · rfl
    · rename_i present due
      rw [present] at pending
      simp [due, Timer.isPending] at pending

theorem adds_poll : (poll host).Keeps (AddsNothingIn before) := by
  rw [poll_eq]
  refine .bind (.now host) fun now => .bind (keeps_runDue (fun session adds => ?_) adds_toBoard) ?_
  · refine ⟨fun pending => ?_, adds.2⟩
    have same := takeDue_of_isPending pending
    exact same.trans (adds.1 (same ▸ pending))
  refine fun first => .bind (keeps_runDue (fun session adds => ?_) adds_toCode) fun second => ?_
  · refine ⟨adds.1, fun pending => ?_⟩
    have same := takeDue_of_isPending pending
    exact same.trans (adds.2 (same ▸ pending))
  · exact .bind (keeps_renewReport fun _ _ adds => adds) fun _ => .pure _

theorem adds_request {direction : Direction} {session : Session σ} :
    (single (request host direction)).Ends session
      (fun outcomes after => (∃ outcome ∈ outcomes, outcome.Settles) →
        session.engine.AddsNothing after.engine)
      fun _ _ => True := by
  have unsettled {outcome : SyncOutcome} (other : ¬outcome.Settles) {after : Session σ} :
      (∃ settled ∈ [outcome], settled.Settles) → session.engine.AddsNothing after.engine := by
    rintro ⟨settled, member, settles⟩
    rw [List.mem_singleton.1 member] at settles
    exact absurd settles other
  refine single_ends (.bind (.engine ?_))
  split
  · exact unsettled id
  · refine .bind (.now ?_)
    cases direction with
    | toBoard | toCode => exact .bind (.modifyEngine (unsettled id))

theorem adds_perform (call : Call) {session : Session σ} :
    (call.perform host).Ends session
      (fun outcomes after => (∃ outcome ∈ outcomes, outcome.Settles) →
        session.engine.AddsNothing after.engine)
      fun _ _ => True := by
  have kept {task : Task σ (List SyncOutcome)}
      (adds : task.Keeps (AddsNothingIn session.engine)) :
      task.Ends session
        (fun outcomes after => (∃ outcome ∈ outcomes, outcome.Settles) →
          session.engine.AddsNothing after.engine)
        fun _ _ => True :=
    (adds session (.refl _)).mono (fun _ _ adds _ => adds) fun _ _ _ => trivial
  cases call with
  | initial =>
    refine kept (keeps_single (.bind (.now host) fun now => ?_))
    refine .bind (.modifyEngine fun _ adds => adds) fun _ => .bind (.query _) fun code => ?_
    split <;> exact adds_force
  | event raised =>
    rw [Call.perform]
    obtain ⟨_, same⟩ | ⟨_, same | ⟨direction, same⟩⟩ := handle_cases host raised <;> rw [same]
    · exact kept (keeps_single adds_force)
    · exact kept (keeps_single adds_force)
    · exact adds_request
  | request direction => exact adds_request
  | force direction => exact kept (keeps_single adds_force)
  | manual direction =>
    refine kept (keeps_single ?_)
    unfold manual
    split
    · exact .bind (.modifyEngine fun _ adds => adds) fun _ => adds_force
    · exact adds_force
  | poll => exact kept adds_poll
  | pause => exact .bind (.modifyEngine fun ⟨_, member, _⟩ => nomatch member)
  | resume =>
    refine kept (keeps_single (.bind (.modifyEngine fun _ adds => adds) fun _ => ?_))
    exact .bind (.query _) fun _ => adds_force

/-- Once a call has written what one side says to the other, no event of its writes is left to tell,
and it has scheduled nothing. As long as nobody else changes either side, nothing that is asked of the
engine afterwards, other than to read the text anew, writes anything: every request comes to nothing,
and both sides and all else that is seen of the host stay as they are. -/
theorem quiet_after_settling (echoes : host.Echoes held pending seen) (session : Session σ)
    (call : Call) :
    (call.perform host).Ends session
      (fun outcomes after => (∃ outcome ∈ outcomes, outcome.Settles) →
        pending after.world = [] ∧ session.engine.AddsNothing after.engine ∧
        ∀ later last, Reaches host Call.Routine (KeepsContents held) after later last →
          (∀ outcome ∈ later, outcome.Calm) ∧ held last.world = held after.world ∧
          ∀ next : Call, next.Routine → (next.perform host).Ends last
            (fun outcomes final => (∀ outcome ∈ outcomes, outcome.Calm) ∧
              held final.world = held last.world ∧ seen final.world = seen last.world)
            fun _ _ => False)
      fun _ _ => False := by
  refine ((echoes.settles_perform call).and (adds_perform call)).mono ?_ fun _ _ both => both.1
  intro outcomes after both settles
  obtain ⟨knows, drained⟩ := both.1 settles
  refine ⟨drained, both.2 settles, fun later last reached => ?_⟩
  obtain ⟨calm, same, knows⟩ := echoes.undisturbed_of_reaches knows reached
  refine ⟨calm, same, fun next routine => ?_⟩
  exact (echoes.quiet_perform routine knows).mono
    (fun _ _ quiet => ⟨quiet.1, quiet.2.held_eq, quiet.2.seen_eq⟩) fun _ _ => id

end Engine

structure Desk extends Notepad where
  pending : List Event

namespace Desk

def held (desk : Desk) : Contents := ⟨desk.text, desk.board⟩

def host : Host Desk where
  now desk := desk.time
  analyze source desk := (.ok (analyze source), desk)
  code desk := (.ok desk.text, desk)
  setCode text desk := (.ok (), { desk with text := text, pending := desk.pending ++ [.textInput] })
  cursor desk := (.ok desk.selection, desk)
  setCursor selection desk := (.ok (), { desk with selection := selection })
  board desk := (.ok desk.board, desk)
  applyBoard board desk :=
    (.ok (), { desk with
      board := { board with mode := desk.board.mode }
      pending := desk.pending ++ [.actionChanged] })
  refresh desk := (.ok (), desk)
  notify _ desk := (.ok (), desk)
  drainEvents desk := (.ok (), { desk with pending := [] })

theorem echoes_host : host.Echoes held Desk.pending (·.selection) where
  analyze _ _ := rfl
  code desk := ⟨desk, rfl, rfl⟩
  setCode _ _ := ⟨_, rfl, rfl⟩
  cursor desk := ⟨desk.selection, desk, rfl, rfl⟩
  setCursor _ _ := ⟨_, rfl, rfl⟩
  board desk := ⟨desk, rfl, rfl⟩
  applyBoard _ desk := ⟨_, desk.board.mode, rfl, rfl, .inr rfl⟩
  refresh desk := ⟨desk, rfl, rfl⟩
  notify _ desk := ⟨desk, rfl, rfl⟩
  drainEvents _ := ⟨_, rfl, rfl⟩
  pending_code _ := rfl
  pending_board _ := rfl
  pending_drainEvents _ := rfl
  seen_code _ := rfl
  seen_board _ := rfl
  seen_drainEvents _ := rfl

def opened (text : String) : Session Desk :=
  ⟨.new .default, { time := 0, text := text, board := .empty, selection := ⟨0, 0⟩, pending := [] }⟩

end Desk

open Desk in
/-- A text that has been read, and a report of what has been written for it that comes late. -/
theorem Engine.quiet_after_settling_late :
    let read := (Call.force .toBoard).perform host (opened "A -> B : hi")
    let answered := (Call.event .actionReordered).perform host read.2
    read.1.toOption = some [.applied .toBoard 0] ∧ read.2.world.pending = [] ∧
      answered.1.toOption = some [.unchanged] ∧ answered.2.world.held = read.2.world.held ∧
      answered.2.world.selection = read.2.world.selection := by
  intro read answered
  have applied : read.1.toOption = some [.applied .toBoard 0] := by decide +kernel
  obtain ⟨outcomes, came, quiet⟩ :=
    (quiet_after_settling echoes_host (opened "A -> B : hi") (.force .toBoard)).ok
  have found := applied
  rw [show read.1 = .ok outcomes from came] at found
  cases found
  obtain ⟨drained, _, later⟩ := quiet ⟨.applied .toBoard 0, List.mem_singleton_self _, trivial⟩
  obtain ⟨_, _, next⟩ := later [] read.2 .start
  obtain ⟨_, _, _, held_eq, selection_eq⟩ := (next (.event .actionReordered) trivial).ok
  exact ⟨applied, drained, by decide +kernel, held_eq, selection_eq⟩

end Lifeline
