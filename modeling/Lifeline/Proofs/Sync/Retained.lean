import Lifeline.Proofs.Sync.Notepad
import Lifeline.Proofs.Sync.Run

/-! What a failed synchronization leaves as it was.

An engine remembers a synchronization only once the other side has been written. A fault on the way
there leaves the memory of earlier synchronizations alone, and what was to be synchronized still counts
as changed. The one call that comes after is the look at what the host has made of a new storyboard. -/

set_option autoImplicit false

namespace Lifeline

/-- Whether an engine remembers the same of past synchronizations as another one, and has counted as
many. -/
structure Engine.Retains (before after : Engine) : Prop where
  syncedCode : after.syncedCode = before.syncedCode
  syncedBoard : after.syncedBoard = before.syncedBoard
  document : after.document = before.document
  syncs : after.metrics.syncs = before.metrics.syncs
  fallbacks : after.metrics.fallbacks = before.metrics.fallbacks

def Engine.CountsOne (before after : Engine) : Prop :=
  after.metrics.syncs + after.metrics.fallbacks =
    before.metrics.syncs + before.metrics.fallbacks + 1

/-- Whether a reading comes to its last look at the storyboard and the host breaks down there. -/
def Engine.LosesSight {σ : Type} (host : Host σ) (code : String) (cursor : Selection)
    (session : Session σ) : Prop :=
  ∃ outcome written breakdown after,
    Engine.readUnseen host code cursor session = (.ok outcome, written) ∧
      host.board written.world = (.error breakdown, after)

/-- Whether a synchronization that starts in a session comes to a last look that fails. Only a reading of
the text has one. -/
def Session.FailsLastLook {σ : Type} (host : Host σ) (session : Session σ) : Direction → Prop
  | .toBoard => ∃ code asked cursor world, host.code session.world = (.ok code, asked) ∧
      host.cursor asked = (.ok cursor, world) ∧
      Engine.LosesSight host code cursor
        ⟨{ session.engine with phase := .running .toBoard }, world⟩
  | .toCode => False

/-- Whether a host can be looked at whenever it has just been written to. -/
def Host.Reveals {σ : Type} (host : Host σ) : Prop :=
  ∀ selection written shown, host.setCursor selection written = (.ok (), shown) →
    ∃ board after, host.board shown = (.ok board, after)

def SyncOutcome.IsFailed : SyncOutcome → Prop
  | .failed _ => True
  | _ => False

/-- Whether what a host holds in one session has to be synchronized yet in another one. -/
def Session.Owes {σ : Type} (host : Host σ) (session after : Session σ) : Direction → Prop
  | .toBoard => ∀ text world, host.code session.world = (.ok text, world) →
      after.engine.syncedCode ≠ some text
  | .toCode => ∀ board world, host.board session.world = (.ok board, world) →
      (after.engine.syncedBoard.any fun synced =>
        !(BoardDifference.between synced board).affectsCode) = false

/-- An engine at the start of the synchronizations that a call asks for: a manual reading and a resumed
engine forget the text. -/
def Call.opening (engine : Engine) : Call → Engine
  | .manual .toBoard | .resume => { engine with syncedCode := none }
  | _ => engine

namespace Engine

variable {σ : Type} {host : Host σ} {session : Session σ} {engine before after : Engine}
  {code : String} {cursor : Selection}

namespace Retains

theorem refl (engine : Engine) : engine.Retains engine := ⟨rfl, rfl, rfl, rfl, rfl⟩

theorem trans {third : Engine} (first : engine.Retains before) (second : before.Retains third) :
    engine.Retains third where
  syncedCode := second.syncedCode.trans first.syncedCode
  syncedBoard := second.syncedBoard.trans first.syncedBoard
  document := second.document.trans first.document
  syncs := second.syncs.trans first.syncs
  fallbacks := second.fallbacks.trans first.fallbacks

theorem of_phase {phase : Phase} (retains : { engine with phase := phase }.Retains after) :
    engine.Retains after :=
  ⟨retains.syncedCode, retains.syncedBoard, retains.document, retains.syncs, retains.fallbacks⟩

end Retains

/-! ## What a synchronization leaves when a fault ends it -/

theorem retains_countError :
    (countError host).Ends session (fun _ after => session.engine.Retains after.engine)
      fun _ after => session.engine.Retains after.engine := by
  refine .bind (.modifyEngine (.bind (.engine ?_)))
  split
  · exact .bind (.modifyEngine (.query (fun _ _ _ => ⟨rfl, rfl, rfl, rfl, rfl⟩)
      fun _ _ _ => ⟨rfl, rfl, rfl, rfl, rfl⟩))
  · exact .pure ⟨rfl, rfl, rfl, rfl, rfl⟩

theorem Retains.countsOne {third : Engine} (retains : engine.Retains before)
    (counts : before.CountsOne third) : engine.CountsOne third := by
  rwa [CountsOne, ← retains.syncs, ← retains.fallbacks]

theorem CountsOne.not_retains {third : Engine} (counts : engine.CountsOne before)
    (later : before.Retains third) : ¬ engine.Retains third := by
  intro retains
  have one := counts
  rw [CountsOne, ← later.syncs, ← later.fallbacks, retains.syncs, retains.fallbacks] at one
  omega

theorem ends_writeBoard (board : Storyboard) :
    (writeBoard host board code cursor).Ends session
      (fun _ after => after.engine = session.engine ∧
        ∃ selection written, host.setCursor selection written = (.ok (), after.world))
      fun _ after => session.engine.Retains after.engine := by
  refine .bind (.command (fun _ _ => .bind (.command (fun refreshed _ => ?_)
    fun _ _ _ => .refl _)) fun _ _ _ => .refl _)
  exact .query (fun _ world set => ⟨rfl, _, refreshed, set⟩) fun _ _ _ => .refl _

structure Written (host : Host σ) (before : Engine) (outcome : SyncOutcome) (after : Session σ) :
    Prop where
  succeeds : ¬ outcome.IsFailed
  counts : before.CountsOne after.engine
  set : ∃ selection written, host.setCursor selection written = (.ok (), after.world)

theorem retains_writeLines (reason : ReadFailure) :
    (writeLines host code reason cursor).Ends session (Written host session.engine)
      fun _ after => session.engine.Retains after.engine := by
  refine .bind (.query (fun board asked _ => .bind ?_) fun _ _ _ => .refl _)
  refine (ends_writeBoard _).mono (fun _ written ⟨same, set⟩ => ?_) fun _ _ => id
  exact .bind (.modifyEngine (.pure ⟨not_false, same ▸ rfl, set⟩))

theorem retains_writeDocument (document : Document) (started : Nat) :
    (writeDocument host code document cursor started).Ends session (Written host session.engine)
      fun _ after => session.engine.Retains after.engine := by
  refine .bind (.query (fun board asked _ => .bind ?_) fun _ _ _ => .refl _)
  refine (ends_writeBoard _).mono (fun _ written ⟨same, set⟩ => ?_) fun _ _ => id
  refine .bind (.now (.bind (.modifyEngine (.pure ⟨not_false, ?_, set⟩))))
  rw [same, CountsOne, Metrics.syncs_record, Metrics.record]
  exact Nat.add_right_comm _ _ _

theorem retains_readUnseen :
    (readUnseen host code cursor).Ends session (Written host session.engine)
      fun _ after => session.engine.Retains after.engine := by
  -- What comes before the writing is not remembered, and counted elsewhere.
  have later {engine : Engine} {task : Task σ SyncOutcome} {left : Session σ}
      (retains : engine.Retains left.engine)
      (ends : task.Ends left (Written host left.engine) fun _ after => left.engine.Retains after.engine) :
      task.Ends left (Written host engine) fun _ after => engine.Retains after.engine :=
    ends.mono (fun _ _ written => { written with counts := retains.countsOne written.counts })
      fun _ _ => retains.trans
  apply readBy_ends
  · exact fun _ => later ⟨rfl, rfl, rfl, rfl, rfl⟩ (retains_writeLines _)
  · intro _ started read
    have retains : session.engine.Retains (session.engine.attempted started) :=
      ⟨rfl, rfl, rfl, rfl, rfl⟩
    refine later retains ?_
    unfold judgeBy
    split
    · refine .bind (retains_countError.mono (fun _ after retains => ?_) fun _ _ => id)
      exact later retains (retains_writeLines _)
    · split
      · split
        · exact retains_writeDocument _ _
        · exact retains_writeLines _
      · exact .bind (.modifyEngine (later ⟨rfl, rfl, rfl, rfl, rfl⟩ (retains_writeLines _)))

/-- A fault in a reading leaves what is remembered, unless it comes with the last look. -/
theorem retains_syncBoard :
    (syncBoard host code cursor).Ends session (fun outcome _ => ¬ outcome.IsFailed) fun _ after =>
      LosesSight host code cursor session ∧ session.engine.CountsOne after.engine ∨
        ¬ LosesSight host code cursor session ∧ session.engine.Retains after.engine := by
  rw [syncBoard_eq_seen]
  refine .bind ((retains_readUnseen.and (.came _ _)).mono ?_ ?_)
  · rintro outcome written ⟨told, came⟩
    refine .bind (.query (fun board world _ => .bind (.modifyEngine (.pure told.succeeds))) ?_)
    exact fun breakdown world broken =>
      .inl ⟨⟨outcome, written, breakdown, world, came, broken⟩, told.counts⟩
  · rintro fault after ⟨retains, came⟩
    refine .inr ⟨?_, retains⟩
    rintro ⟨outcome, written, -, -, came', -⟩
    cases came.symm.trans came'

theorem retains_writeCode (board : Storyboard) (old new : String) (started : Nat) :
    (writeCode host board old new started).Ends session (fun outcome _ => ¬ outcome.IsFailed)
      fun _ after => session.engine.Retains after.engine := by
  refine .bind (.query (fun _ _ _ => ?_) fun _ _ _ => .refl _)
  refine .bind (.command (fun _ _ => ?_) fun _ _ _ => .refl _)
  refine .bind (.query (fun _ _ _ => ?_) fun _ _ _ => .refl _)
  refine .bind (.command (fun _ _ => ?_) fun _ _ _ => .refl _)
  exact .bind (.now (.bind (.modifyEngine (.pure not_false))))

/-- A fault ends the rendering of a storyboard before anything is remembered, and if the storyboard
could be looked at, there was something in it that the text is to show. -/
theorem retains_syncCode :
    (syncCode host).Ends session (fun outcome _ => ¬ outcome.IsFailed) fun _ after =>
      session.engine.Retains after.engine ∧ ∀ board world,
        host.board session.world = (.ok board, world) →
        (session.engine.syncedBoard.any fun synced =>
          !(BoardDifference.between synced board).affectsCode) = false := by
  refine .bind (.now (.bind (.query (fun board world shown => ?_) fun _ _ broken => ?_)))
  · refine .bind (.engine ?_)
    split
    · exact .bind (.modifyEngine (.pure not_false))
    · rename_i changed
      have owed : ∀ board' world', host.board session.world = (.ok board', world') →
          (session.engine.syncedBoard.any fun synced =>
            !(BoardDifference.between synced board').affectsCode) = false := by
        intro board' world' shown'
        cases shown.symm.trans shown'
        exact Bool.eq_false_iff.2 changed
      refine .bind (.query (fun old _ _ => ?_) fun _ _ _ => ⟨.refl _, owed⟩)
      generalize board.render = new
      dsimp only
      split
      · exact .bind (.modifyEngine (.pure not_false))
      · exact (retains_writeCode _ _ _ _).mono (fun _ _ => id) fun _ _ retains => ⟨retains, owed⟩
  · refine ⟨.refl _, fun board world shown => ?_⟩
    cases broken.symm.trans shown

/-! ## What a failed synchronization leaves -/

theorem ends_running_of_retains {direction : Direction} {task : Task σ SyncOutcome}
    {value : SyncOutcome → Session σ → Prop}
    (runs : task.Ends { session with engine := { session.engine with phase := .running direction } }
      (fun outcome _ => ¬ outcome.IsFailed) fun fault after => ∀ left,
        after.engine.Retains left.engine → value (.failed ⟨direction, fault⟩) left)
    (passes : ∀ outcome left, ¬ outcome.IsFailed → value outcome left) :
    (Task.during (.running direction) do
      let outcome ← counted host direction task
      Task.query host.drainEvents
      return outcome).Ends session value fun _ _ => True := by
  refine .during (.bind (.recover (runs.mono (fun outcome _ succeeds => ?_) ?_)))
  · exact .bind (.query (fun _ _ _ => .pure (passes _ _ succeeds)) fun _ _ _ => trivial)
  · refine fun fault after fails => .bind (retains_countError.mono ?_ fun _ _ _ => trivial)
    intro _ counted retains
    refine .pure (.bind (.query (fun _ drained _ => .pure ?_) fun _ _ _ => trivial))
    refine fails _ (retains.trans ?_)
    obtain ⟨phase, left⟩ :=
      Task.exists_leave (.running direction) { counted with world := drained }
    rw [left]
    exact ⟨rfl, rfl, rfl, rfl, rfl⟩

theorem failsLastLook_iff {asked world : σ} (told : host.code session.world = (.ok code, asked))
    (pointed : host.cursor asked = (.ok cursor, world)) :
    session.FailsLastLook host .toBoard ↔
      LosesSight host code cursor ⟨{ session.engine with phase := .running .toBoard }, world⟩ := by
  refine ⟨?_, fun loses => ⟨code, asked, cursor, world, told, pointed, loses⟩⟩
  rintro ⟨code', asked', cursor', world', told', pointed', loses⟩
  cases told.symm.trans told'
  cases pointed.symm.trans pointed'
  exact loses

theorem retains_toBoard :
    (toBoard host).Ends session (fun outcome after => outcome.IsFailed →
      (session.engine.Retains after.engine ∧ session.Owes host after .toBoard ↔
        ¬ session.FailsLastLook host .toBoard)) fun _ _ => True := by
  refine .bind (.engine ?_)
  split
  · exact .pure nofun
  refine .bind (.query (fun text asked told => .bind (.engine ?_)) fun _ _ _ => trivial)
  split
  · exact .pure nofun
  rename_i other
  refine .bind (.now ?_)
  split
  · exact .bind (.modifyEngine (.pure nofun))
  refine .bind (.query (fun cursor world pointed => ?_) fun _ _ _ => trivial)
  refine ends_running_of_retains (retains_syncBoard.mono (fun _ _ => id) ?_) ?_
  · rintro fault after ended left later -
    rw [failsLastLook_iff told pointed]
    rcases ended with ⟨loses, counts⟩ | ⟨sees, retains⟩
    · have counted : session.engine.CountsOne after.engine := counts
      exact iff_of_false (fun both => counted.not_retains later both.1) (not_not_intro loses)
    · have kept : session.engine.Retains left.engine := .of_phase (retains.trans later)
      refine iff_of_true ⟨kept, fun text' world' told' => ?_⟩ sees
      cases told.symm.trans told'
      rw [kept.syncedCode]
      exact other
  · exact fun outcome left succeeds failed => (succeeds failed).elim

theorem retains_toCode :
    (toCode host).Ends session (fun outcome after => outcome.IsFailed →
      session.engine.Retains after.engine ∧ session.Owes host after .toCode) fun _ _ => True := by
  refine .bind (.engine ?_)
  split
  · exact .pure nofun
  · refine ends_running_of_retains (retains_syncCode.mono (fun _ _ => id) ?_) ?_
    · rintro fault after ⟨retained, owed⟩ left retains -
      have kept : session.engine.Retains left.engine := .of_phase (retained.trans retains)
      refine ⟨kept, fun board world shown => ?_⟩
      rw [kept.syncedBoard]
      exact owed board world shown
    · exact fun outcome left succeeds failed => (succeeds failed).elim

def sync (host : Host σ) : Direction → Task σ SyncOutcome
  | .toBoard => toBoard host
  | .toCode => toCode host

theorem retains_sync (direction : Direction) :
    (sync host direction).Ends session (fun outcome after => outcome.IsFailed →
      (session.engine.Retains after.engine ∧ session.Owes host after direction ↔
        ¬ session.FailsLastLook host direction)) fun _ _ => True := by
  cases direction with
  | toBoard => exact retains_toBoard
  | toCode =>
    exact retains_toCode.mono (fun _ _ retains failed => iff_of_true (retains failed) not_false)
      fun _ _ => id

/-! ## What a call leaves all of whose synchronizations fail -/

def Fail (outcomes : List SyncOutcome) : Prop := ∀ outcome ∈ outcomes, outcome.IsFailed

variable (reveals : host.Reveals)

include reveals

/-- The last look comes right after the selection has been set. -/
theorem not_failsLastLook (session : Session σ) (direction : Direction) :
    ¬ session.FailsLastLook host direction := by
  cases direction with
  | toCode => exact not_false
  | toBoard =>
    rintro ⟨code, -, cursor, world, -, -, outcome, written, breakdown, after, came, broken⟩
    have told : Written host _ outcome _ := retains_readUnseen.of_ok (by rw [came]; rfl)
    rw [came] at told
    obtain ⟨selection, before, set⟩ := told.set
    obtain ⟨board, left, shown⟩ := reveals selection before written.world set
    cases broken.symm.trans shown

theorem retains_of_fail {first : Engine} (start : first.Retains session.engine)
    (direction : Direction) :
    (sync host direction).Ends session
      (fun outcome after => Fail [outcome] → first.Retains after.engine) fun _ _ => True := by
  refine (retains_sync direction).mono (fun outcome after retains fail => ?_) fun _ _ => id
  have failed : outcome.IsFailed := fail outcome List.mem_cons_self
  exact start.trans ((retains failed).2 (not_failsLastLook reveals session direction)).1

theorem retains_force {first : Engine} (start : first.Retains session.engine) (direction : Direction) :
    (force host direction).Ends session
      (fun outcome after => Fail [outcome] → first.Retains after.engine) fun _ _ => True := by
  have forced {changed : Engine} (same : session.engine.Retains changed) :
      (sync host direction).Ends { session with engine := changed }
        (fun outcome after => Fail [outcome] → first.Retains after.engine) fun _ _ => True :=
    retains_of_fail reveals (start.trans same) direction
  cases direction with
  | toBoard | toCode => exact .bind (.modifyEngine (forced ⟨rfl, rfl, rfl, rfl, rfl⟩))

omit reveals in
theorem retains_request (direction : Direction) :
    (request host direction).Ends session (fun outcome _ => ¬ Fail [outcome]) fun _ _ => True := by
  have passes {outcome : SyncOutcome} (other : ¬ outcome.IsFailed) : ¬ Fail [outcome] :=
    fun fail => other (fail outcome List.mem_cons_self)
  refine .bind (.engine ?_)
  split
  · exact .pure (passes not_false)
  · refine .bind (.now ?_)
    cases direction with
    | toBoard | toCode => exact .bind (.modifyEngine (.pure (passes not_false)))

theorem retains_handle (event : Event) :
    (handle host event).Ends session
      (fun outcome after => Fail [outcome] → session.engine.Retains after.engine)
      fun _ _ => True := by
  obtain ⟨-, handled⟩ | ⟨-, handled | ⟨direction, handled⟩⟩ := handle_cases host event <;> rw [handled]
  · exact retains_force reveals (.refl _) _
  · exact retains_force reveals (.refl _) _
  · exact (retains_request direction).mono (fun _ _ passes fail => (passes fail).elim) fun _ _ => id

theorem retains_initial :
    (initial host).Ends session
      (fun outcome after => Fail [outcome] → session.engine.Retains after.engine)
      fun _ _ => True := by
  refine .bind (.now (.bind (.modifyEngine (.bind (.query (fun text _ _ => ?_)
    fun _ _ _ => trivial)))))
  split <;> refine retains_force reveals ?_ _ <;> exact ⟨rfl, rfl, rfl, rfl, rfl⟩

theorem retains_runDue {first : Engine} {timer : Engine → Timer} {update : Engine → Timer → Engine}
    {now : Nat} {task : Task σ SyncOutcome} {direction : Direction} (names : sync host direction = task)
    (updates : ∀ engine timer, Retains engine (update engine timer))
    (start : first.Retains session.engine) :
    (runDue timer update now task).Ends session
      (fun outcomes after => Fail outcomes → first.Retains after.engine) fun _ _ => True := by
  subst names
  have taken := start.trans (updates session.engine ((timer session.engine).takeDue now).2)
  exact runDue_ends (fun _ => taken) (retains_of_fail reveals taken direction)

theorem retains_poll :
    (poll host).Ends session
      (fun outcomes after => Fail outcomes → session.engine.Retains after.engine)
      fun _ _ => True := by
  have toBoard_eq : sync host .toBoard = toBoard host := rfl
  have toCode_eq : sync host .toCode = toCode host := rfl
  rw [poll_eq]
  refine .bind (.now (.bind ?_))
  refine (retains_runDue reveals toBoard_eq (fun _ _ => ?_) (.refl _)).mono
    (fun first after one => .bind ?_) fun _ _ => id
  · exact ⟨rfl, rfl, rfl, rfl, rfl⟩
  by_cases fail : Fail first
  · refine (retains_runDue reveals toCode_eq (fun _ _ => ?_) (one fail)).mono
      (fun second _ other => ?_) fun _ _ => id
    · exact ⟨rfl, rfl, rfl, rfl, rfl⟩
    refine .bind (renewReport_ends fun _ => .pure fun both => ?_)
    refine (other fun outcome member => both outcome ?_).trans ⟨rfl, rfl, rfl, rfl, rfl⟩
    exact List.mem_append_right _ member
  · refine (Task.Ends.trivial _ _).mono (fun second _ _ => ?_) fun _ _ => id
    refine .bind (renewReport_ends fun _ => .pure fun both => ?_)
    exact (fail fun outcome member => both outcome (List.mem_append_left _ member)).elim

theorem retains_perform (call : Call) :
    (call.perform host).Ends session
      (fun outcomes after => Fail outcomes → (call.opening session.engine).Retains after.engine)
      fun _ _ => True := by
  cases call with
  | initial => exact single_ends (retains_initial reveals)
  | event raised => exact single_ends (retains_handle reveals raised)
  | request direction =>
    exact single_ends ((retains_request direction).mono (fun _ _ passes fail => (passes fail).elim)
      fun _ _ => id)
  | force direction => exact single_ends (retains_force reveals (.refl _) direction)
  | manual direction =>
    cases direction with
    | toBoard => exact single_ends (.bind (.modifyEngine (retains_force reveals (.refl _) .toBoard)))
    | toCode => exact single_ends (retains_force reveals (.refl _) .toCode)
  | poll => exact retains_poll reveals
  | pause =>
    refine .bind (.modifyEngine (.pure fun _ => ?_))
    dsimp only [Call.opening]
    split
    · exact .refl _
    · exact ⟨rfl, rfl, rfl, rfl, rfl⟩
  | resume =>
    refine single_ends (.bind (.modifyEngine (.bind (.query (fun _ _ _ => ?_) fun _ _ _ => trivial))))
    refine retains_force reveals ?_ .toBoard
    exact ⟨rfl, rfl, rfl, rfl, rfl⟩

omit reveals in
/-- A synchronization that fails leaves what the engine remembers and has counted, and what it was to
synchronize still has to be, exactly if it is not its last look at the storyboard that fails. Where no such
look fails, a call all of whose synchronizations fail leaves as much, but for the text that a manual reading
and a resumed engine forget at the start. -/
theorem retained_of_failed (host : Host σ) (session : Session σ) :
    (∀ direction, (sync host direction).Ends session
      (fun outcome after => outcome.IsFailed →
        (session.engine.Retains after.engine ∧ session.Owes host after direction ↔
          ¬ session.FailsLastLook host direction)) fun _ _ => True) ∧
    (host.Reveals → ∀ call : Call, (call.perform host).Ends session
      (fun outcomes after => Fail outcomes → (call.opening session.engine).Retains after.engine)
      fun _ _ => True) :=
  ⟨retains_sync, retains_perform⟩

end Engine

namespace Notepad

def locked (deadline : Nat) : Host Notepad :=
  { host (analyzeFor 0) with
    applyBoard := fun board pad =>
      if deadline ≤ pad.time then (.error (.refused "projection refused"), pad)
      else (host (analyzeFor 0)).applyBoard board pad }

def veiled : Host Notepad :=
  { host (analyzeFor 0) with
    board := fun pad =>
      if pad.board.actions.isEmpty then (.ok pad.board, pad) else (.error ⟨"host exploded"⟩, pad) }

def typedAt (time : Nat) (text : String) (session : Session Notepad) : Session Notepad :=
  { session with world := { session.world with time := time, text := text } }

def closing : Nat := 200 * Config.nanosPerMilli

def retypedLate (text : String) : Session Notepad :=
  typedAt closing text
    ((Call.force .toBoard).perform (locked closing) (opened .default "A -> B : one")).2

end Notepad

open Notepad in
theorem Engine.retained_of_failed_refused :
    let session := retypedLate "A -> B : two"
    let failed := (Call.force .toBoard).perform (locked closing) session
    let synced := Engine.sync (locked closing) .toBoard session
    (locked closing).Reveals ∧
      Call.outcomes failed.1 = [.failed ⟨.toBoard, .refused "projection refused"⟩] ∧
      session.engine.syncedCode = some "A -> B : one" ∧
      session.engine.Retains failed.2.engine ∧
      session.engine.Retains synced.2.engine ∧ session.Owes (locked closing) synced.2 .toBoard := by
  intro session failed synced
  have reveals : (locked closing).Reveals := fun _ _ shown _ => ⟨shown.board, shown, rfl⟩
  have came : failed.1.toOption =
      some [.failed ⟨.toBoard, .refused "projection refused"⟩] := by decide +kernel
  have came' : synced.1.toOption =
      some (.failed ⟨.toBoard, .refused "projection refused"⟩) := by decide +kernel
  obtain ⟨bySync, byCall⟩ := retained_of_failed (locked closing) session
  have retains := (byCall reveals (.force .toBoard)).of_ok came
  have kept := ((bySync .toBoard).of_ok came' trivial).2
    (not_failsLastLook reveals session .toBoard)
  refine ⟨reveals, by decide +kernel, by decide +kernel, retains fun outcome member => ?_, kept⟩
  cases List.mem_singleton.1 member
  exact trivial

open Notepad in
/-- A manual reading that fails leaves no text behind, so that the text that is shown is read once more.
A host that hides a storyboard as soon as it has been written has its text taken for synchronized, and
the synchronization counted, though it fails. -/
theorem Engine.retained_of_failed_forgotten :
    (let shown := retypedLate "A -> B : one"
      let failed := (Call.manual .toBoard).perform (locked closing) shown
      (∃ past, Reaches (locked closing) (fun _ => True) (fun _ _ => True)
        (opened .default "A -> B : one") past shown) ∧
        Call.outcomes failed.1 = [.failed ⟨.toBoard, .refused "projection refused"⟩] ∧
        shown.engine.syncedCode = some "A -> B : one" ∧ failed.2.engine.syncedCode = none) ∧
      let failed := (Call.force .toBoard).perform veiled (opened .default "A -> B : hi")
      Call.outcomes failed.1 = [.failed ⟨.toBoard, .broken ⟨"host exploded"⟩⟩] ∧
        failed.2.engine.syncedCode = some "A -> B : hi" ∧ failed.2.engine.metrics.syncs = 1 := by
  refine ⟨⟨⟨_, .edit _ (.call (.force .toBoard) .start trivial) trivial⟩, ?_⟩, ?_⟩ <;>
    decide +kernel

end Lifeline
