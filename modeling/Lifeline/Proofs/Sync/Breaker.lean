import Lifeline.Proofs.Sync.Notices
import Lifeline.Proofs.Sync.Retained

/-! What repeated failure leads to.

Every failed synchronization is counted, and the count is forgotten where a synchronization is taken
for applied. So as many failures in a row as there may be errors end in a pause, whatever happens between
them, as long as each synchronization that is taken for applied is applied in the end. -/

set_option autoImplicit false

namespace Lifeline

open Lifeline.Task (Keeps)

namespace SyncOutcome

def isFailed : SyncOutcome → Bool
  | .failed _ => true
  | _ => false

end SyncOutcome

/-- How many synchronizations have been applied, and how many have failed since the last of them. -/
structure Tally where
  applied : Nat
  failed : Nat

namespace Tally

def add (tally : Tally) : SyncOutcome → Tally
  | .applied .. => ⟨tally.applied + 1, 0⟩
  | .failed _ => ⟨tally.applied, tally.failed + 1⟩
  | _ => tally

def after (tally : Tally) (outcomes : List SyncOutcome) : Tally := outcomes.foldl add tally

theorem after_append (tally : Tally) (first second : List SyncOutcome) :
    tally.after (first ++ second) = (tally.after first).after second := List.foldl_append

theorem applied_after (tally : Tally) (outcomes : List SyncOutcome) :
    (tally.after outcomes).applied = tally.applied + outcomes.countP (·.isApplied) := by
  induction outcomes generalizing tally with
  | nil => rfl
  | cons outcome rest ih =>
    rw [after, List.foldl_cons, ← after, ih, List.countP_cons]
    cases outcome <;> simp [add, SyncOutcome.isApplied]
    omega

theorem failed_after {outcomes : List SyncOutcome} (tally : Tally)
    (unapplied : ∀ outcome ∈ outcomes, outcome.isApplied = false) :
    (tally.after outcomes).failed = tally.failed + outcomes.countP (·.isFailed) := by
  induction outcomes generalizing tally with
  | nil => rfl
  | cons outcome rest ih =>
    have first := unapplied outcome List.mem_cons_self
    rw [after, List.foldl_cons, ← after, ih _ fun other member => unapplied other (.tail _ member),
      List.countP_cons]
    cases outcome with
    | applied => cases first
    | failed => simp [add, SyncOutcome.isFailed]; omega
    | _ => simp [add, SyncOutcome.isFailed]

end Tally

namespace Engine

/-- Whether an engine has counted what a tally says: it is paused, or it has not forgotten any failure,
or it has taken more for applied than has been applied. -/
structure Counts (tally : Tally) (engine : Engine) : Prop where
  applied : tally.applied ≤ engine.metrics.syncs
  failed : engine.phase = .paused ∨ tally.failed ≤ engine.errorCount ∨
    tally.applied < engine.metrics.syncs

variable {σ : Type} {host : Host σ} {tally : Tally} {engine : Engine}

theorem Counts.fewer {failed : Nat} (counts : engine.Counts tally) (few : failed ≤ tally.failed) :
    engine.Counts ⟨tally.applied, failed⟩ :=
  ⟨counts.applied, counts.failed.imp_right (.imp_left few.trans)⟩

/-- What is taken for applied makes up for all failures before it. -/
theorem Counts.of_applied {failed failed' : Nat} (counts : engine.Counts ⟨tally.applied + 1, failed⟩) :
    engine.Counts ⟨tally.applied, failed'⟩ :=
  ⟨Nat.le_of_succ_le counts.applied, .inr (.inr counts.applied)⟩

theorem Counts.of_add {outcome : SyncOutcome} (counts : engine.Counts (tally.add outcome)) :
    engine.Counts tally := by
  cases outcome with
  | applied => exact counts.of_applied
  | failed => exact counts.fewer (Nat.le_succ _)
  | _ => exact counts

theorem Counts.charged (error : SyncError) (counts : engine.Counts tally) :
    engine.charged.Counts (tally.add (.failed error)) := by
  unfold Engine.charged
  dsimp only
  split
  · exact ⟨counts.applied, .inl rfl⟩
  · exact ⟨counts.applied, counts.failed.imp_right (.imp_left Nat.succ_le_succ)⟩

def Reports (task : Task σ SyncOutcome) (tally : Tally) (session : Session σ) : Prop :=
  task.Ends session (fun outcome after => after.engine.Counts (tally.add outcome))
    fun _ after => after.engine.Counts tally

variable {session : Session σ} {code : String} {cursor : Selection}

theorem counts_countError (error : SyncError) (counts : session.engine.Counts tally) :
    (countError host).Ends session
      (fun _ after => after.engine.Counts (tally.add (.failed error)))
      fun _ after => after.engine.Counts (tally.add (.failed error)) :=
  countError_ends (fun _ => counts.charged error) fun _ => counts.charged error

abbrev CountsIn (tally : Tally) (session : Session σ) : Prop := session.engine.Counts tally

theorem reports_fallBack {reason : ReadFailure} (counts : session.engine.Counts tally) :
    Reports (fallBack host code reason cursor) tally session := by
  refine .bind ((Keeps.query _ _ counts).mono (fun board asked counts => ?_) fun _ _ => id)
  refine .bind ((keeps_writeBoard _ _ _ _ counts).mono (fun _ written counts => ?_) fun _ _ => id)
  have shown : CountsIn tally
      { written with engine := { written.engine with
          metrics := { written.engine.metrics with
            fallbacks := written.engine.metrics.fallbacks + 1 }
          syncedCode := if reason = .attemptsExceeded then written.engine.syncedCode
            else some code } } := ⟨counts.applied, counts.failed⟩
  refine .bind (.modifyEngine (.bind ((Keeps.query _ _ shown).mono (fun _ _ counts => ?_)
    fun _ _ => id)))
  exact .bind (.modifyEngine (.pure ⟨counts.applied, counts.failed⟩))

/-- A document is taken for applied before the host is looked at for the last time. If it breaks down
then, the engine has forgotten its failures all the same. -/
theorem reports_showDocument {document : Document} {started : Nat}
    (counts : session.engine.Counts tally) :
    Reports (showDocument host code document cursor started) tally session := by
  refine .bind ((Keeps.query _ _ counts).mono (fun board asked counts => ?_) fun _ _ => id)
  refine .bind ((keeps_writeBoard _ _ _ _ counts).mono (fun _ written counts => ?_) fun _ _ => id)
  have applied (duration : Nat) : CountsIn ⟨tally.applied + 1, 0⟩
      { written with engine := { written.engine with
          metrics := written.engine.metrics.record .toBoard duration
          parseAttempts := 0
          errorCount := 0
          syncedCode := some code
          document := some document } } :=
    ⟨Nat.succ_le_succ counts.applied, .inr (.inl (Nat.zero_le _))⟩
  refine .bind (.now (.bind (.modifyEngine (.bind ((Keeps.query _ _ (applied _)).mono
    (fun _ _ counts => ?_) fun _ _ => Counts.of_applied)))))
  exact .bind (.modifyEngine (.pure ⟨counts.applied, counts.failed⟩))

theorem reports_judge {started finished : Nat} {inTime : Bool} {result : Except Breakdown Analysis}
    (counts : session.engine.Counts tally) :
    Reports (judge host code cursor started finished inTime result) tally session := by
  unfold judge judgeBy
  split
  · rename_i breakdown
    exact .bind ((counts_countError ⟨.toBoard, .broken breakdown⟩ counts).mono
      (fun _ _ counts => reports_fallBack counts.of_add) fun _ _ => Counts.of_add)
  · split
    · split
      · exact reports_showDocument counts
      · exact reports_fallBack counts
    · exact .bind (.modifyEngine (reports_fallBack ⟨counts.applied, counts.failed⟩))

theorem reports_syncBoard (counts : session.engine.Counts tally) :
    Reports (syncBoard host code cursor) tally session := by
  apply syncBoard_ends
  · exact fun _ => reports_fallBack ⟨counts.applied, counts.failed⟩
  · exact fun _ => reports_judge ⟨counts.applied, counts.failed⟩

theorem reports_writeCode {board : Storyboard} {old new : String} {started : Nat}
    (counts : session.engine.Counts tally) :
    Reports (writeCode host board old new started) tally session := by
  refine .bind ((Keeps.query _ _ counts).mono (fun _ _ counts => ?_) fun _ _ => id)
  refine .bind ((Keeps.command _ _ counts).mono (fun _ _ counts => ?_) fun _ _ => id)
  refine .bind ((Keeps.query _ _ counts).mono (fun _ _ counts => ?_) fun _ _ => id)
  refine .bind ((Keeps.command _ _ counts).mono (fun _ _ counts => ?_) fun _ _ => id)
  refine .bind (.now (.bind (.modifyEngine (.pure ⟨?_, .inr (.inl (Nat.zero_le _))⟩))))
  exact Nat.succ_le_succ counts.applied

theorem reports_syncCode (counts : session.engine.Counts tally) :
    Reports (syncCode host) tally session := by
  refine .bind (.now (.bind ((Keeps.query _ _ counts).mono (fun board _ counts => ?_)
    fun _ _ => id)))
  refine .bind (.engine ?_)
  split
  · exact .bind (.modifyEngine (.pure ⟨counts.applied, counts.failed⟩))
  · refine .bind ((Keeps.query _ _ counts).mono (fun old _ counts => ?_) fun _ _ => id)
    generalize board.render = new
    dsimp only
    split
    · exact .bind (.modifyEngine (.pure ⟨counts.applied, counts.failed⟩))
    · exact reports_writeCode counts

theorem reports_running {direction : Direction} {task : Task σ SyncOutcome}
    (awake : session.engine.phase ≠ .paused) (counts : session.engine.Counts tally)
    (reports : ∀ session : Session σ, session.engine.Counts tally → Reports task tally session) :
    Reports (Task.during (.running direction) do
      let outcome ← counted host direction task
      Task.query host.drainEvents
      return outcome) tally session := by
  have leaves {tally : Tally} {session : Session σ} (counts : session.engine.Counts tally) :
      (Task.leave (.running direction) session).engine.Counts tally := by
    unfold Task.leave
    split
    · rename_i running
      refine ⟨counts.applied, .inr (counts.failed.resolve_left fun paused => ?_)⟩
      exact absurd (running.symm.trans paused) nofun
    · exact counts
  have drained {outcome : SyncOutcome} {session : Session σ}
      (counts : session.engine.Counts (tally.add outcome)) :
      (do Task.query host.drainEvents; return outcome : Task σ SyncOutcome).Ends session
        (fun outcome after => (Task.leave (.running direction) after).engine.Counts
          (tally.add outcome))
        fun _ after => (Task.leave (.running direction) after).engine.Counts tally :=
    .bind ((Keeps.query _ _ counts).mono (fun _ _ counts => .pure (leaves counts))
      fun _ _ counts => leaves counts.of_add)
  have running : Counts tally { session.engine with phase := .running direction } :=
    ⟨counts.applied, .inr (counts.failed.resolve_left awake)⟩
  refine .during (.bind (.recover ((reports _ running).mono (fun _ _ => drained) ?_)))
  intro fault after counts
  exact .bind ((counts_countError ⟨direction, fault⟩ counts).mono (fun _ _ counts => .pure (drained counts))
    fun _ _ counts => leaves counts.of_add)

/-! ## What a call reports -/

theorem reports_toBoard (counts : session.engine.Counts tally) :
    Reports (toBoard host) tally session := by
  refine .bind (.engine ?_)
  split
  · exact counts
  · rename_i awake
    refine .bind (.query (fun code _ _ => .bind (.engine ?_)) fun _ _ _ => counts)
    split
    · exact counts
    · refine .bind (.now ?_)
      split
      · exact .bind (.modifyEngine ⟨counts.applied, counts.failed⟩)
      · exact .bind (.query (fun cursor _ _ => reports_running awake counts
          fun _ => reports_syncBoard) fun _ _ _ => counts)

theorem reports_toCode (counts : session.engine.Counts tally) :
    Reports (toCode host) tally session := by
  refine .bind (.engine ?_)
  split
  · exact counts
  · rename_i awake
    exact reports_running awake counts fun _ => reports_syncCode

theorem reports_force {direction : Direction} (counts : session.engine.Counts tally) :
    Reports (force host direction) tally session := by
  cases direction with
  | toBoard => exact .bind (.modifyEngine (reports_toBoard ⟨counts.applied, counts.failed⟩))
  | toCode => exact .bind (.modifyEngine (reports_toCode ⟨counts.applied, counts.failed⟩))

theorem reports_request {direction : Direction} (counts : session.engine.Counts tally) :
    Reports (request host direction) tally session := by
  refine .bind (.engine ?_)
  split
  · exact counts
  · refine .bind (.now ?_)
    cases direction <;> exact .bind (.modifyEngine ⟨counts.applied, counts.failed⟩)

theorem reports_handle (event : Event) (counts : session.engine.Counts tally) :
    Reports (handle host event) tally session := by
  obtain ⟨_, same⟩ | ⟨_, same | ⟨direction, same⟩⟩ := handle_cases host event <;> rw [same]
  · exact reports_force counts
  · exact reports_force counts
  · exact reports_request counts

theorem reports_manual {direction : Direction} (counts : session.engine.Counts tally) :
    Reports (manual host direction) tally session := by
  unfold manual
  split
  · exact .bind (.modifyEngine (reports_force ⟨counts.applied, counts.failed⟩))
  · exact reports_force counts

theorem reports_initial (counts : session.engine.Counts tally) :
    Reports (initial host) tally session := by
  refine .bind (.now (.bind (.modifyEngine (.bind (.query (fun _ _ _ => ?_) fun _ _ _ => ?_)))))
  · split <;> exact reports_force ⟨counts.applied, counts.failed⟩
  · exact ⟨counts.applied, counts.failed⟩

theorem reports_resume (counts : session.engine.Counts tally) (none : tally.failed = 0) :
    Reports (resume host) tally session := by
  have forgotten (engine : Engine) (syncs : engine.metrics.syncs = session.engine.metrics.syncs) :
      engine.Counts tally :=
    ⟨syncs ▸ counts.applied, .inr (.inl (none ▸ Nat.zero_le _))⟩
  exact .bind (.modifyEngine (.bind (.query (fun _ _ _ => reports_force (forgotten _ rfl))
    fun _ _ _ => forgotten _ rfl)))

theorem counts_runDue {timer : Engine → Timer} {update : Engine → Timer → Engine} {now : Nat}
    {sync : Task σ SyncOutcome}
    (kept : ∀ left, (update session.engine left).Counts tally)
    (reports : ∀ session : Session σ, session.engine.Counts tally → Reports sync tally session) :
    (runDue timer update now sync).Ends session
      (fun outcomes after => after.engine.Counts (tally.after outcomes))
      fun _ after => after.engine.Counts tally :=
  runDue_ends (kept _) (reports _ (kept _))

theorem counts_poll (counts : session.engine.Counts tally) :
    (poll host).Ends session (fun outcomes after => after.engine.Counts (tally.after outcomes))
      fun _ after => after.engine.Counts tally := by
  have later (first : List SyncOutcome) {now : Nat} {between : Session σ}
      (counts : between.engine.Counts (tally.after first)) :
      (do
        let second ← runDue boardDebounce ({ · with boardDebounce := · }) now (toCode host)
        renewReport now
        return first ++ second).Ends between
        (fun outcomes after => after.engine.Counts (tally.after outcomes))
        fun _ after => after.engine.Counts (tally.after first) := by
    refine .bind ((counts_runDue ?_ fun _ => reports_toCode).mono (fun second _ counts => ?_)
      fun _ _ => id)
    · exact fun _ => ⟨counts.applied, counts.failed⟩
    · refine .bind (renewReport_ends fun timer => ?_)
      rw [← Tally.after_append] at counts
      exact ⟨counts.applied, counts.failed⟩
  rw [poll_eq]
  have due (left : Timer) : { session.engine with codeDebounce := left }.Counts tally :=
    ⟨counts.applied, counts.failed⟩
  refine .bind (.now (.bind (runDue_ends (later [] (due _)) ?_)))
  refine Task.Ends.mono (reports_toBoard (due _)) (fun outcome _ counts => ?_) fun _ _ => id
  exact (later [outcome] counts).mono (fun _ _ => id) fun _ _ => Counts.of_add

end Engine

open Engine

namespace Call

variable {σ : Type} {host : Host σ} {session : Session σ} {tally : Tally}

theorem counts_perform (call : Call) (counts : session.engine.Counts tally)
    (forgotten : call = .resume → tally.failed = 0) :
    (call.perform host).Ends session
      (fun outcomes after => after.engine.Counts (tally.after outcomes))
      fun _ after => after.engine.Counts tally := by
  cases call with
  | initial => exact single_ends (reports_initial counts)
  | event raised => exact single_ends (reports_handle raised counts)
  | request direction => exact single_ends (reports_request counts)
  | force direction => exact single_ends (reports_force counts)
  | manual direction => exact single_ends (reports_manual counts)
  | poll => exact counts_poll counts
  | pause =>
    refine .bind (.modifyEngine ?_)
    split
    · exact counts
    · exact ⟨counts.applied, .inl rfl⟩
  | resume => exact single_ends (reports_resume counts (forgotten rfl))

end Call

/-- If as many synchronizations as there may be errors fail one after another, the engine is paused in
the end. In between nothing is resumed, no synchronization is applied, and none is taken for applied
that is not: the engine counts what it takes for applied, and all of that is applied in the end. The
first of the failures may be that of a resumption. -/
theorem Engine.paused_of_failures {σ : Type} {host : Host σ} {config : Config}
    (limited : 1 ≤ config.maxErrors) {world : σ} {past : List SyncOutcome} {before : Session σ}
    (reached : Reaches host (fun _ => True) (fun _ _ => True) ⟨.new config, world⟩ past before)
    (call : Call) {later : List SyncOutcome} {session : Session σ}
    (reached' : Reaches host (· ≠ .resume) (fun _ _ => True) (call.perform host before).2 later
      session)
    {earlier failures : List SyncOutcome}
    (outcomes : Call.outcomes (call.perform host before).1 ++ later = earlier ++ failures)
    (unapplied : ∀ outcome ∈ failures, outcome.isApplied = false)
    (many : config.maxErrors ≤ failures.countP (·.isFailed))
    (truthful : session.engine.metrics.syncs =
      before.engine.metrics.syncs + (earlier ++ failures).countP (·.isApplied)) :
    session.engine.phase = .paused := by
  have sound : session.engine.Sound config .idle := by
    have first := reached.keeps (fun _ => SoundIn config .idle) (sound_new config)
      (fun _ session call _ => call.keeps_perform session) fun _ _ _ _ => id
    exact reached'.keeps (fun _ => SoundIn config .idle) (call.keeps_perform before first).after
      (fun _ session call _ => call.keeps_perform session) fun _ _ _ _ => id
  have counts : session.engine.Counts
      (Tally.after ⟨before.engine.metrics.syncs, 0⟩ (earlier ++ failures)) := by
    rw [← outcomes, Tally.after_append]
    refine reached'.keeps (fun later session => session.engine.Counts (Tally.after (Tally.after
      ⟨before.engine.metrics.syncs, 0⟩ (Call.outcomes (call.perform host before).1)) later))
      ?_ (fun later session call other counts => ?_) fun _ _ _ _ => id
    · have fresh : before.engine.Counts ⟨before.engine.metrics.syncs, 0⟩ :=
        ⟨Nat.le_refl _, .inr (.inl (Nat.zero_le _))⟩
      have performed : (call.perform host).Ends before _ _ :=
        call.counts_perform fresh fun _ => rfl
      unfold Task.Ends at performed
      generalize call.perform host before = ended at performed ⊢
      obtain ⟨fault | outcomes, after⟩ := ended <;> exact performed
    · refine (call.counts_perform counts fun resumes => absurd resumes other).mono
        (fun outcomes _ counts => ?_) fun _ _ => id
      rwa [Tally.after_append]
  by_contra awake
  have few := sound.errors awake
  have struck := counts.failed.resolve_left awake
  rw [Tally.applied_after, ← truthful, or_iff_left (Nat.lt_irrefl _), Tally.after_append,
    Tally.failed_after _ unapplied] at struck
  rw [Nat.max_eq_right limited] at few
  omega

namespace Notepad

def twice (text : String) : Session Notepad := opened { Config.default with maxErrors := 2 } text

def cleared (text : String) (session : Session Notepad) : Session Notepad :=
  let typed := typedAt (session.world.time + 1000 * Config.nanosPerMilli) text session
  { typed with world := { typed.world with board := .empty } }

end Notepad

open Notepad in
theorem Engine.paused_of_failures_refused :
    let refusal := SyncOutcome.failed ⟨.toBoard, .refused "projection refused"⟩
    let failed := (Call.force .toBoard).perform (locked 0) (twice "A -> B : one")
    let again := (Call.force .toBoard).perform (locked 0) (cleared "A -> B : two" failed.2)
    Call.outcomes failed.1 = [refusal] ∧ Call.outcomes again.1 = [refusal] ∧
      again.2.engine.phase = .paused := by
  intro refusal failed again
  have first : Call.outcomes failed.1 = [refusal] := by decide +kernel
  have second : Call.outcomes again.1 = [refusal] := by decide +kernel
  have stays : Reaches (locked 0) (· ≠ .resume) (fun _ _ => True) failed.2 [] failed.2 := .start
  have reached : Reaches (locked 0) (· ≠ .resume) (fun _ _ => True) failed.2
      ([] ++ Call.outcomes again.1) again.2 :=
    (stays.edit (cleared "A -> B : two" failed.2).world trivial).call (.force .toBoard) nofun
  have outcomes : Call.outcomes failed.1 ++ ([] ++ Call.outcomes again.1) =
      [] ++ [refusal, refusal] := by
    rw [first, second]
    rfl
  exact ⟨first, second, paused_of_failures (by decide) .start (.force .toBoard) reached outcomes
    (by decide) (by decide) (by decide +kernel)⟩

open Notepad in
/-- A host that breaks down whenever it is asked for a storyboard that has just been written: each text
is taken for applied, and the failure before it forgotten, before its own failure is counted. -/
theorem Engine.paused_of_failures_veiled :
    let failed := (Call.force .toBoard).perform veiled (twice "A -> B : one")
    let again := (Call.force .toBoard).perform veiled (cleared "A -> B : two" failed.2)
    Call.outcomes failed.1 = [.failed ⟨.toBoard, .broken ⟨"host exploded"⟩⟩] ∧
      Call.outcomes again.1 = [.failed ⟨.toBoard, .broken ⟨"host exploded"⟩⟩] ∧
      again.2.engine.config.maxErrors = 2 ∧ again.2.engine.errorCount = 1 ∧
      again.2.engine.phase = .idle := by
  decide +kernel

end Lifeline
