import Lifeline.Proofs.Sync.Budget
import Lifeline.Proofs.Sync.Notices

/-! What a resumption does: it reads the text, whatever came before it.

Nothing that an engine has counted or remembers keeps it from reading the text again. The errors of that
reading are counted from nothing, so that the engine is idle afterwards unless they are too many on their
own. Only a call that nothing guards can end a resumption without an outcome, and its host has been told
of it by then. -/

set_option autoImplicit false

namespace Lifeline

/-- Whether an outcome is that of a reading: a text has been shown as it reads, or line by line because of
what has come of reading it, or that has failed. -/
def SyncOutcome.IsReading : SyncOutcome → Prop
  | .applied direction _ => direction = .toBoard
  | .fallback reason _ _ => reason ≠ .attemptsExceeded
  | .failed error => error.direction = .toBoard
  | .unchanged | .scheduled .. | .skipped _ => False

/-- How calls can break down that nothing guards. -/
inductive Host.Unguarded {σ : Type} (host : Host σ) : Fault → Prop where
  | notify {notification : Notification} {world : σ} {breakdown : Breakdown} :
      (host.notify notification world).1 = .error breakdown → Unguarded host (.broken breakdown)
  | code {world : σ} {breakdown : Breakdown} :
      (host.code world).1 = .error breakdown → Unguarded host (.broken breakdown)
  | cursor {world : σ} {breakdown : Breakdown} :
      (host.cursor world).1 = .error breakdown → Unguarded host (.broken breakdown)
  | drainEvents {world : σ} {breakdown : Breakdown} :
      (host.drainEvents world).1 = .error breakdown → Unguarded host (.broken breakdown)

namespace Engine

/-- What an engine has counted since it was resumed with some number of errors in its metrics, and what
the log of readings holds. In `active` the engine is where it is not paused. -/
structure Afresh (config : Config) (base : Nat) (log : List Nat) (active : Phase) (count : Nat)
    (engine : Engine) (starts : List Nat) : Prop where
  config_eq : engine.config = config
  count_eq : engine.errorCount = count
  errors : engine.metrics.errors = base + count
  phase : engine.phase = if config.errorLimit ≤ count then .paused else active
  log_eq : starts = log

variable {σ : Type} {host : Host σ} {starts : σ → List Nat} {config : Config} {base count : Nat}
  {log : List Nat} {active : Phase} {session : Session σ} {code : String} {cursor : Selection}

abbrev AfreshIn (starts : σ → List Nat) (config : Config) (base : Nat) (log : List Nat)
    (active : Phase) (count : Nat) (session : Session σ) : Prop :=
  session.engine.Afresh config base log active count (starts session.world)

abbrev Ran (starts : σ → List Nat) (config : Config) (base : Nat) (log : List Nat) (active : Phase)
    (session : Session σ) : Prop :=
  ∃ count, AfreshIn starts config base log active count session

/-! ## What a reading counts -/

section Logs

variable (logs : host.Logs starts)
include logs

theorem afresh_writeBoard (board : Storyboard) :
    (writeBoard host board code cursor).Keeps (AfreshIn starts config base log active count) :=
  .bind (keeps_unasked (logs.applyBoard board)) fun _ =>
    .bind (keeps_unasked logs.refresh) fun _ => keeps_untold (logs.setCursor _)

theorem afresh_fallBack {reason : ReadFailure} (other : reason ≠ .attemptsExceeded)
    (afresh : AfreshIn starts config base log active count session) :
    (fallBack host code reason cursor).Ends session
      (fun outcome after => outcome.IsReading ∧ Ran starts config base log active after)
      fun _ => Ran starts config base log active := by
  refine .bind ((keeps_untold logs.board session afresh).mono (fun board asked afresh => ?_)
    fun _ _ afresh => ⟨_, afresh⟩)
  refine .bind ((afresh_writeBoard logs _ asked afresh).mono (fun _ written afresh => ?_)
    fun _ _ afresh => ⟨_, afresh⟩)
  have shown : AfreshIn starts config base log active count
      { written with engine := { written.engine with
          metrics := { written.engine.metrics with
            fallbacks := written.engine.metrics.fallbacks + 1 }
          syncedCode := if reason = .attemptsExceeded then written.engine.syncedCode
            else some code } } := { afresh with }
  refine .bind (.modifyEngine (.bind ((keeps_untold logs.board _ shown).mono
    (fun board looked afresh => ?_) fun _ _ afresh => ⟨_, afresh⟩)))
  exact .bind (.modifyEngine (.pure ⟨other, _, { afresh with }⟩))

/-- A text is shown as it reads only where no error has been counted, so that none is forgotten. -/
theorem afresh_showDocument {document : Document} {started : Nat}
    (afresh : AfreshIn starts config base log active 0 session) :
    (showDocument host code document cursor started).Ends session
      (fun outcome after => outcome.IsReading ∧ Ran starts config base log active after)
      fun _ => Ran starts config base log active := by
  refine .bind ((keeps_untold logs.board session afresh).mono (fun board asked afresh => ?_)
    fun _ _ afresh => ⟨_, afresh⟩)
  refine .bind ((afresh_writeBoard logs _ asked afresh).mono (fun _ written afresh => ?_)
    fun _ _ afresh => ⟨_, afresh⟩)
  have shown (duration : Nat) : AfreshIn starts config base log active 0
      { written with engine := { written.engine with
          metrics := written.engine.metrics.record .toBoard duration
          parseAttempts := 0
          errorCount := 0
          syncedCode := some code
          document := some document } } := { afresh with count_eq := rfl }
  refine .bind (.now (.bind (.modifyEngine (.bind ((keeps_untold logs.board _ (shown _)).mono
    (fun board looked afresh => ?_) fun _ _ afresh => ⟨_, afresh⟩)))))
  exact .bind (.modifyEngine (.pure ⟨rfl, _, { afresh with }⟩))

end Logs

theorem unguarded_query {α : Type} {call : Query σ α} {holds : Engine → List Nat → Prop}
    (silent : ∀ world, starts (call world).2 = starts world)
    (breaks : ∀ {world breakdown}, (call world).1 = .error breakdown →
      host.Unguarded (.broken breakdown))
    (kept : holds session.engine (starts session.world)) :
    (Task.query call).Ends session (fun _ after => holds after.engine (starts after.world))
      fun fault after => host.Unguarded fault ∧ holds after.engine (starts after.world) := by
  have unguarded : (Task.query call).Ends session (fun _ _ => True)
      fun fault _ => host.Unguarded fault :=
    .query (fun _ _ _ => trivial) fun _ _ called => breaks (congrArg Prod.fst called)
  exact (unguarded.and (keeps_untold silent session kept)).mono (fun _ _ => And.right) fun _ _ => id

theorem unguarded_countError (session : Session σ) :
    (countError host).Ends session (fun _ _ => True) fun fault _ => host.Unguarded fault := by
  refine .bind (.modifyEngine (.bind (.engine ?_)))
  split
  · refine .bind (.modifyEngine (.query (fun _ _ _ => trivial) fun breakdown world called => ?_))
    exact .notify (congrArg Prod.fst called)
  · trivial

theorem afresh_charged (afresh : AfreshIn starts config base log active count session) {world : σ}
    (same : starts world = starts session.world) :
    AfreshIn starts config base log active (count + 1) ⟨session.engine.charged, world⟩ := by
  have phase := afresh.phase
  have limit := config.errorLimit_le_iff count
  rw [← afresh.config_eq, ← afresh.count_eq] at limit
  unfold charged
  dsimp only
  split
  · rename_i many
    rw [← limit, afresh.config_eq, afresh.count_eq] at many
    exact ⟨afresh.config_eq, congrArg (· + 1) afresh.count_eq, congrArg (· + 1) afresh.errors,
      (if_pos many).symm, same.trans afresh.log_eq⟩
  · rename_i few
    rw [← limit, afresh.config_eq, afresh.count_eq] at few
    rw [if_neg fun before => few (Nat.le_succ_of_le before)] at phase
    exact ⟨afresh.config_eq, congrArg (· + 1) afresh.count_eq, congrArg (· + 1) afresh.errors,
      phase.trans (if_neg few).symm, same.trans afresh.log_eq⟩

section Logs

variable (logs : host.Logs starts)
include logs

theorem afresh_countError (afresh : AfreshIn starts config base log active count session) :
    (countError host).Ends session
      (fun _ => AfreshIn starts config base log active (count + 1))
      fun fault after => host.Unguarded fault ∧
        AfreshIn starts config base log active (count + 1) after := by
  have counts : (countError host).Ends session
      (fun _ => AfreshIn starts config base log active (count + 1))
      fun _ => AfreshIn starts config base log active (count + 1) :=
    countError_ends (fun _ => afresh_charged afresh rfl)
      fun _ => afresh_charged afresh (logs.notify _ _)
  exact ((unguarded_countError session).and counts).mono (fun _ _ => And.right) fun _ _ => id

theorem afresh_judge {started finished : Nat} {inTime : Bool} {result : Except Breakdown Analysis}
    (afresh : AfreshIn starts config base log active 0 session) :
    (judge host code cursor started finished inTime result).Ends session
      (fun outcome after => outcome.IsReading ∧ Ran starts config base log active after)
      fun _ => Ran starts config base log active := by
  unfold judge judgeBy
  split
  · exact .bind ((afresh_countError logs afresh).mono (fun _ _ => afresh_fallBack logs nofun)
      fun _ _ broken => ⟨_, broken.2⟩)
  · split
    · split
      · exact afresh_showDocument logs afresh
      · exact afresh_fallBack logs nofun afresh
    · exact .bind (.modifyEngine (afresh_fallBack logs nofun { afresh with }))

theorem afresh_syncBoard (afresh : AfreshIn starts config base log active 0 session)
    (left : session.engine.parseAttempts < session.engine.config.maxParseAttempts) :
    (syncBoard host code cursor).Ends session
      (fun outcome after => outcome.IsReading ∧
        Ran starts config base (log ++ [host.now session.world]) active after)
      fun _ => Ran starts config base (log ++ [host.now session.world]) active := by
  apply syncBoard_ends
  · intro spent
    exact absurd spent (Nat.not_le.2 left)
  · intro _ read
    refine afresh_judge logs ?_
    have started : starts read.2 = log ++ [host.now session.world] := by
      rw [← afresh.log_eq]
      exact logs.analyze _ _
    exact { afresh with log_eq := started }

end Logs

theorem ran_leave {direction : Direction} (ran : Ran starts config base log (.running direction) session) :
    Ran starts config base log .idle (Task.leave (.running direction) session) := by
  obtain ⟨count, afresh⟩ := ran
  have phase := afresh.phase
  refine ⟨count, ?_⟩
  unfold Task.leave
  by_cases many : config.errorLimit ≤ count
  · -- The phase is that of the pause by now, and leaving does not touch it.
    rw [if_pos many] at phase
    rw [if_neg (by rw [phase]; nofun)]
    exact { afresh with phase := phase.trans (if_pos many).symm }
  · rw [if_neg many] at phase
    rw [if_pos phase]
    exact { afresh with phase := (if_neg many).symm }

theorem afresh_running (logs : host.Logs starts)
    (afresh : AfreshIn starts config base log .idle 0 session)
    (left : session.engine.parseAttempts < session.engine.config.maxParseAttempts) :
    (Task.during (.running .toBoard) do
      let outcome ← counted host .toBoard (syncBoard host code cursor)
      Task.query host.drainEvents
      return outcome).Ends session
        (fun outcome after => outcome.IsReading ∧
          Ran starts config base (log ++ [host.now session.world]) .idle after)
        fun fault after => host.Unguarded fault ∧
          Ran starts config base (log ++ [host.now session.world]) .idle after := by
  have running : AfreshIn starts config base log (.running .toBoard) 0
      { session with engine := { session.engine with phase := .running .toBoard } } :=
    { afresh with phase := (if_neg (Nat.not_le.2 config.errorLimit_pos)).symm }
  have drained {log : List Nat} {outcome : SyncOutcome} {session : Session σ}
      (reading : outcome.IsReading)
      (ran : Ran starts config base log (.running .toBoard) session) :
      (do Task.query host.drainEvents; return outcome : Task σ SyncOutcome).Ends session
        (fun outcome after => outcome.IsReading ∧
          Ran starts config base log .idle (Task.leave (.running .toBoard) after))
        fun fault after => host.Unguarded fault ∧
          Ran starts config base log .idle (Task.leave (.running .toBoard) after) := by
    obtain ⟨count, afresh⟩ := ran
    exact .bind ((unguarded_query logs.drainEvents .drainEvents afresh).mono
      (fun _ _ afresh => .pure ⟨reading, ran_leave ⟨_, afresh⟩⟩)
      fun _ _ broken => ⟨broken.1, ran_leave ⟨_, broken.2⟩⟩)
  refine .during (.bind (.recover ((afresh_syncBoard logs running left).mono
    (fun _ _ read => drained read.1 read.2) fun fault after ran => ?_)))
  obtain ⟨count, afresh⟩ := ran
  exact .bind ((afresh_countError logs afresh).mono (fun _ _ afresh => .pure (drained rfl ⟨_, afresh⟩))
    fun _ _ broken => ⟨broken.1, ran_leave ⟨_, broken.2⟩⟩)

/-! ## What a resumption does -/

/-- Whether an engine has counted no errors and remembers nothing that keeps it from reading a text. -/
structure Ready (config : Config) (base : Nat) (log : List Nat) (engine : Engine)
    (starts : List Nat) : Prop extends Afresh config base log .idle 0 engine starts where
  syncedCode : engine.syncedCode = none
  lastParseAt : engine.lastParseAt = none
  parseAttempts : engine.parseAttempts = 0

theorem reads_toBoard (logs : host.Logs starts) (allowed : 0 < config.maxParseAttempts)
    (ready : session.engine.Ready config base log (starts session.world)) :
    (toBoard host).Ends session
      (fun outcome after => outcome.IsReading ∧
        ∃ started, Ran starts config base (log ++ [started]) .idle after)
      fun fault after => host.Unguarded fault ∧ ∃ log, Ran starts config base log .idle after := by
  have awake : session.engine.phase = .idle :=
    ready.phase.trans (if_neg (Nat.not_le.2 config.errorLimit_pos))
  refine .bind (.engine ?_)
  rw [if_neg (by rw [awake]; nofun)]
  refine .bind ((unguarded_query logs.code .code ready).mono (fun code asked ready => ?_)
    fun _ _ broken => ⟨broken.1, _, _, broken.2.toAfresh⟩)
  refine .bind (.engine ?_)
  rw [if_neg (by rw [ready.syncedCode]; nofun)]
  refine .bind (.now ?_)
  -- Whatever the time is, there is no earlier reading to keep apart from.
  rw [ready.lastParseAt, if_neg (by nofun)]
  refine .bind ((unguarded_query logs.cursor .cursor ready).mono (fun cursor placed ready => ?_)
    fun _ _ broken => ⟨broken.1, _, _, broken.2.toAfresh⟩)
  have left : placed.engine.parseAttempts < placed.engine.config.maxParseAttempts := by
    rw [ready.parseAttempts, ready.config_eq]
    exact allowed
  exact (afresh_running logs ready.toAfresh left).mono (fun _ _ read => ⟨read.1, _, read.2⟩)
    fun _ _ broken => ⟨broken.1, _, broken.2⟩

theorem reads_resume (logs : host.Logs starts) (allowed : 0 < config.maxParseAttempts)
    (sound : session.engine.Sound config .idle) :
    (resume host).Ends session
      (fun outcome after => outcome.IsReading ∧ ∃ started,
        Ran starts config session.engine.metrics.errors (starts session.world ++ [started]) .idle after)
      fun fault after => host.Unguarded fault ∧
        ∃ log, Ran starts config session.engine.metrics.errors log .idle after := by
  have awake : (if session.engine.phase = .paused then .idle else session.engine.phase) =
      Phase.idle := by
    split
    · rfl
    · exact sound.phase.resolve_right ‹_›
  have ready : Ready config session.engine.metrics.errors (starts session.world)
      { session.engine with
        phase := if session.engine.phase = .paused then .idle else session.engine.phase
        errorCount := 0
        parseAttempts := 0
        syncedCode := none
        lastParseAt := none } (starts session.world) :=
    { config_eq := sound.config_eq
      count_eq := rfl
      errors := rfl
      phase := awake.trans (if_neg (Nat.not_le.2 config.errorLimit_pos)).symm
      log_eq := rfl
      syncedCode := rfl
      lastParseAt := rfl
      parseAttempts := rfl }
  refine .bind (.modifyEngine (.bind ((unguarded_query (logs.notify _) .notify ready).mono
    (fun _ told ready => ?_) fun _ _ broken => ⟨broken.1, _, _, broken.2.toAfresh⟩)))
  exact .bind (.modifyEngine (reads_toBoard logs allowed { ready with }))

/-- What a resumption leaves whatever it comes to: its host has been told of it once, and the engine is
idle unless errors have been counted since and are too many on their own. -/
structure Resumption (record : σ → List Notification) (before after : Session σ) : Prop where
  told : ∃ notices, record after.world = record before.world ++ .resumed :: notices ∧
    .resumed ∉ notices
  rests : ∃ errors, after.engine.metrics.errors = before.engine.metrics.errors + errors ∧
    after.engine.phase =
      if 0 < errors ∧ before.engine.config.maxErrors ≤ errors then .paused else .idle

theorem resumption_of_noted {record : σ → List Notification} {bound : Nat} {after : Session σ}
    (config_eq : session.engine.config = config)
    (noted : Noted host record config (record session.world ++ [.resumed]) bound after)
    (ran : Ran starts config session.engine.metrics.errors log .idle after) :
    Resumption record session after := by
  obtain ⟨count, afresh⟩ := ran
  refine ⟨?_, count, afresh.errors, ?_⟩
  · have told {bound : Nat}
        (notes : NotesIn record config (record session.world ++ [.resumed]) bound after) :
        ∃ notices, record after.world = record session.world ++ .resumed :: notices ∧
          .resumed ∉ notices := by
      refine ⟨_, notes.record_eq.trans (List.append_assoc _ _ _), ?_⟩
      simp [pausesTold]
    exact noted.elim told fun broken => told broken.2
  · rw [afresh.phase, config_eq]
    exact if_congr Nat.max_le rfl rfl

end Engine

/-- In every state that an engine can come to, paused or not, over whatever host, a resumption reads the
text, as long as the settings allow for one reading: the analyzer is started once, and the outcome is that
of a reading, never that of a pause, of a text found unchanged, of readings too close together or of too
many of them. It comes to no outcome only where a call breaks down that nothing guards. Either way the
host has been told of the resumption, and the engine is idle unless the errors that have been counted
since are too many on their own. -/
theorem Engine.resume_reads {σ : Type} {host : Host σ} {record : σ → List Notification}
    {starts : σ → List Nat} (records : host.Records record) (logs : host.Logs starts)
    {config : Config} (attempts : 1 ≤ config.maxParseAttempts) {world : σ} {past : List SyncOutcome}
    {session : Session σ}
    (reached : Reaches host (fun _ => True) (fun _ _ => True) ⟨.new config, world⟩ past session) :
    (resume host).Ends session
      (fun outcome after => outcome.IsReading ∧
        (∃ started, starts after.world = starts session.world ++ [started]) ∧
        Resumption record session after)
      fun fault after => host.Unguarded fault ∧ Resumption record session after := by
  have sound : session.engine.Sound config .idle := reached.sound (sound_new config)
  have reads := reads_resume logs attempts sound
  refine (reads.and (noted_resume records sound.config_eq)).mono ?_ ?_
  · rintro outcome after ⟨⟨reading, started, ran⟩, noted⟩
    obtain ⟨count, afresh⟩ := ran
    exact ⟨reading, ⟨started, afresh.log_eq⟩, resumption_of_noted sound.config_eq noted ⟨_, afresh⟩⟩
  · rintro fault after ⟨⟨unguarded, log, ran⟩, noted⟩
    exact ⟨unguarded, resumption_of_noted sound.config_eq noted ran⟩

theorem Host.Records.logged {σ : Type} {host : Host σ} {record : σ → List Notification}
    (records : host.Records record) : host.logged.Records (record ·.1) where
  analyze source world := records.analyze source world.1
  code world := records.code world.1
  setCode text world := records.setCode text world.1
  cursor world := records.cursor world.1
  setCursor selection world := records.setCursor selection world.1
  board world := records.board world.1
  applyBoard board world := records.applyBoard board world.1
  refresh world := records.refresh world.1
  notify notification world := records.notify notification world.1
  drainEvents world := records.drainEvents world.1

def Notepad.watched : Host ((Notepad × List Notification) × List Nat) :=
  (host (analyzeFor 0)).recorded.logged

def Notepad.once : Config := { Config.default with maxParseAttempts := 1 }

def Notepad.worn : Session ((Notepad × List Notification) × List Nat) :=
  (Call.pause.perform watched ((Call.force .toBoard).perform watched
    ⟨.new once, ((opened once "A -> : one").world, []), []⟩).2).2

open Notepad in
theorem Engine.resume_reads_worn :
    let ended := resume watched worn
    worn.engine.phase = .paused ∧ worn.engine.parseAttempts = once.maxParseAttempts ∧
      worn.engine.syncedCode = some worn.world.1.1.text ∧
      worn.engine.lastParseAt = some (watched.now worn.world) ∧
      ended.1.toOption = some (.fallback (.invalid 1) 0 0) ∧
      (∃ started, ended.2.world.2 = worn.world.2 ++ [started]) ∧
      Resumption (fun world => world.1.2) worn ended.2 ∧ ended.2.engine.phase = .idle := by
  intro ended
  have reached : Reaches watched (fun _ => True) (fun _ _ => True)
      ⟨.new once, ((opened once "A -> : one").world, []), []⟩ _ worn :=
    .call .pause (.call (.force .toBoard) .start trivial) trivial
  have came : ended.1.toOption = some (.fallback (.invalid 1) 0 0) := by decide +kernel
  have allowed : 1 ≤ once.maxParseAttempts := Nat.le_refl 1
  have reads := resume_reads (Host.records_recorded (host (analyzeFor 0))).logged
    (Host.logs_logged _) allowed reached
  obtain ⟨-, started, resumption⟩ := reads.of_ok came
  exact ⟨by decide +kernel, by decide +kernel, by decide +kernel, by decide +kernel, came, started,
    resumption, by decide +kernel⟩

end Lifeline
