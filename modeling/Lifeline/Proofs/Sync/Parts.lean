import Lifeline.Proofs.Sync.Task

/-! The parts of longer entry points, each under a name of its own. -/

set_option autoImplicit false

namespace Lifeline

namespace Timer

@[simp] theorem isPending_cancel (timer : Timer) : timer.cancel.isPending = false := by
  simp [isPending]

theorem isPending_takeDue {timer : Timer} {now : Nat} (idle : timer.isPending = false) :
    (timer.takeDue now).2.isPending = false := by
  unfold takeDue
  split
  · exact idle
  · split
    · exact idle
    · rfl

theorem finish_schedule (timer : Timer) (deadline now : Nat) :
    (timer.schedule deadline).2.finish (timer.schedule deadline).1 now =
      (decide (now < deadline), (timer.schedule deadline).2.cancel) := by
  simp [finish, schedule, isCurrent]

end Timer

namespace Engine

variable {σ : Type}

/-- Judges what has come of reading a text, and does the one thing with what it says or the other with
what is wrong with it. -/
def judgeBy (host : Host σ) (falls : ReadFailure → Task σ SyncOutcome)
    (shows : Document → Task σ SyncOutcome) (started finished : Nat) (inTime : Bool) :
    Except Breakdown Analysis → Task σ SyncOutcome
  | .error breakdown => do
    countError host
    falls (.broken breakdown)
  | .ok analysis =>
    if inTime then
      match analysis.document, analysis.issues with
      | some document, [] => shows document
      | _, issues => falls (.invalid (max issues.length 1))
    else do
      Task.modifyEngine fun engine =>
        { engine with metrics := { engine.metrics with timeouts := engine.metrics.timeouts + 1 } }
      falls (.timeout (finished - started))

def judge (host : Host σ) (code : String) (cursor : Selection) (started finished : Nat)
    (inTime : Bool) : Except Breakdown Analysis → Task σ SyncOutcome :=
  judgeBy host (fallBack host code · cursor) (showDocument host code · cursor started) started
    finished inTime

/-- An engine once it has made an attempt at reading whose race is over. -/
def attempted (engine : Engine) (started : Nat) : Engine :=
  { engine with
    parseAttempts := engine.parseAttempts + 1
    lastParseAt := some started
    parseTimeout := (engine.parseTimeout.schedule (started + engine.config.parseTimeout)).2.cancel }

def charged (engine : Engine) : Engine :=
  let counted := { engine with
    errorCount := engine.errorCount + 1
    metrics := { engine.metrics with errors := engine.metrics.errors + 1 } }
  if engine.config.maxErrors ≤ engine.errorCount + 1 then counted.halt else counted

def fellBack (engine : Engine) (code : String) (reason : ReadFailure) (board : Storyboard) :
    Engine :=
  { engine with
    metrics := { engine.metrics with fallbacks := engine.metrics.fallbacks + 1 }
    syncedCode := if reason = .attemptsExceeded then engine.syncedCode else some code
    syncedBoard := some board }

def showed (engine : Engine) (code : String) (document : Document) (board : Storyboard)
    (duration : Nat) : Engine :=
  { engine with
    metrics := engine.metrics.record .toBoard duration
    parseAttempts := 0
    errorCount := 0
    syncedCode := some code
    syncedBoard := some board
    document := some document }

def settleBy (host : Host σ) (falls : ReadFailure → Task σ SyncOutcome)
    (shows : Document → Task σ SyncOutcome) (started : Nat) (ticket : Ticket)
    (result : Except Breakdown Analysis) : Task σ SyncOutcome := do
  let finished ← Task.now host
  let (inTime, settled) := (← Task.engine).parseTimeout.finish ticket finished
  Task.modifyEngine fun engine => { engine with parseTimeout := settled }
  judgeBy host falls shows started finished inTime result

/-- Reads a text, unless too many readings have failed, and settles its race. -/
def readBy (host : Host σ) (code : String) (falls : ReadFailure → Task σ SyncOutcome)
    (shows : Nat → Document → Task σ SyncOutcome) : Task σ SyncOutcome := do
  let started ← Task.now host
  let engine ← Task.engine
  if engine.config.maxParseAttempts ≤ engine.parseAttempts then
    Task.modifyEngine fun engine => { engine with parseAttempts := 0 }
    falls .attemptsExceeded
  else
    let (ticket, race) := engine.parseTimeout.schedule (started + engine.config.parseTimeout)
    Task.modifyEngine fun engine =>
      { engine with
        parseAttempts := engine.parseAttempts + 1
        lastParseAt := some started
        parseTimeout := race }
    let result ← Task.attempt (host.analyze (repair code engine.config.maxLines).code)
    settleBy host falls (shows started) started ticket result

theorem syncBoard_eq_readBy (host : Host σ) (code : String) (cursor : Selection) :
    syncBoard host code cursor =
      readBy host code (fallBack host code · cursor) fun started document =>
        showDocument host code document cursor started := rfl

section Ends

variable {host : Host σ} {code : String} {cursor : Selection} {session : Session σ}
  {value : SyncOutcome → Session σ → Prop} {fault : Fault → Session σ → Prop}

theorem settleBy_ends {falls : ReadFailure → Task σ SyncOutcome}
    {shows : Document → Task σ SyncOutcome} {timer : Timer} {started deadline : Nat}
    {result : Except Breakdown Analysis}
    (scheduled : session.engine.parseTimeout = (timer.schedule deadline).2)
    (judged : (judgeBy host falls shows started (host.now session.world)
        (decide (host.now session.world < deadline)) result).Ends
      { session with
        engine := { session.engine with parseTimeout := (timer.schedule deadline).2.cancel } }
      value fault) :
    (settleBy host falls shows started (timer.schedule deadline).1 result).Ends session
      value fault := by
  refine .bind (.now (.bind (.engine ?_)))
  rw [scheduled, Timer.finish_schedule]
  exact .bind (.modifyEngine judged)

theorem readBy_ends {falls : ReadFailure → Task σ SyncOutcome}
    {shows : Nat → Document → Task σ SyncOutcome}
    (refused : session.engine.config.maxParseAttempts ≤ session.engine.parseAttempts →
      (falls .attemptsExceeded).Ends
        { session with engine := { session.engine with parseAttempts := 0 } } value fault)
    (judged : session.engine.parseAttempts < session.engine.config.maxParseAttempts →
      let started := host.now session.world
      let read := host.analyze (repair code session.engine.config.maxLines).code session.world
      (judgeBy host falls (shows started) started (host.now read.2)
        (decide (host.now read.2 < started + session.engine.config.parseTimeout)) read.1).Ends
          ⟨session.engine.attempted started, read.2⟩ value fault) :
    (readBy host code falls shows).Ends session value fault := by
  refine .bind (.now (.bind (.engine ?_)))
  split
  · rename_i spent
    exact .bind (.modifyEngine (refused spent))
  · rename_i left
    refine .bind (.modifyEngine (.bind (.attempt ?_)))
    exact settleBy_ends rfl (judged (Nat.lt_of_not_le left))

theorem syncBoard_ends
    (refused : session.engine.config.maxParseAttempts ≤ session.engine.parseAttempts →
      (fallBack host code .attemptsExceeded cursor).Ends
        { session with engine := { session.engine with parseAttempts := 0 } } value fault)
    (judged : session.engine.parseAttempts < session.engine.config.maxParseAttempts →
      let read := host.analyze (repair code session.engine.config.maxLines).code session.world
      (judge host code cursor (host.now session.world) (host.now read.2)
        (decide (host.now read.2 < host.now session.world + session.engine.config.parseTimeout))
        read.1).Ends ⟨session.engine.attempted (host.now session.world), read.2⟩ value fault) :
    (syncBoard host code cursor).Ends session value fault := by
  rw [syncBoard_eq_readBy]
  exact readBy_ends refused judged

end Ends

/-! ## The last look

Every reading that no fault ends asks the host in the end what it has made of the new storyboard. -/

/-- Does something and remembers the storyboard that the host holds by then. -/
def seen (host : Host σ) (task : Task σ SyncOutcome) : Task σ SyncOutcome := do
  let outcome ← task
  let board ← Task.query host.board
  Task.modifyEngine fun engine => { engine with syncedBoard := some board }
  return outcome

def writeLines (host : Host σ) (code : String) (reason : ReadFailure) (cursor : Selection) :
    Task σ SyncOutcome := do
  let extracted := extract code
  let board := extracted.document.project.onto (← Task.query host.board)
  writeBoard host board code cursor
  Task.modifyEngine fun engine =>
    { engine with
      metrics := { engine.metrics with fallbacks := engine.metrics.fallbacks + 1 }
      syncedCode := if reason = .attemptsExceeded then engine.syncedCode else some code }
  return .fallback reason extracted.actors.names.length extracted.messages.length

def writeDocument (host : Host σ) (code : String) (document : Document) (cursor : Selection)
    (started : Nat) : Task σ SyncOutcome := do
  let board := document.project.onto (← Task.query host.board)
  writeBoard host board code cursor
  let duration := (← Task.now host) - started
  Task.modifyEngine fun engine =>
    { engine with
      metrics := engine.metrics.record .toBoard duration
      parseAttempts := 0
      errorCount := 0
      syncedCode := some code
      document := some document }
  return .applied .toBoard duration

/-- A reading up to its last look. -/
def readUnseen (host : Host σ) (code : String) (cursor : Selection) : Task σ SyncOutcome :=
  readBy host code (writeLines host code · cursor) fun started document =>
    writeDocument host code document cursor started

section Look

variable (host : Host σ) (code : String) (cursor : Selection)

theorem seen_bind {α : Type} (first : Task σ α) (next : α → Task σ SyncOutcome) :
    seen host (first >>= next) = first >>= fun result => seen host (next result) := by
  simp only [seen, bind_assoc]

theorem fallBack_eq_seen (reason : ReadFailure) :
    fallBack host code reason cursor = seen host (writeLines host code reason cursor) := by
  simp only [fallBack, seen, writeLines, bind_assoc, pure_bind]

theorem showDocument_eq_seen (document : Document) (started : Nat) :
    showDocument host code document cursor started =
      seen host (writeDocument host code document cursor started) := by
  simp only [showDocument, seen, writeDocument, bind_assoc, pure_bind]

theorem judgeBy_seen (falls : ReadFailure → Task σ SyncOutcome)
    (shows : Document → Task σ SyncOutcome) (started finished : Nat) (inTime : Bool)
    (result : Except Breakdown Analysis) :
    judgeBy host (fun reason => seen host (falls reason)) (fun document => seen host (shows document))
        started finished inTime result =
      seen host (judgeBy host falls shows started finished inTime result) := by
  unfold judgeBy
  split
  · rw [seen_bind]
  · split
    · split <;> rfl
    · rw [seen_bind]

theorem settleBy_seen (falls : ReadFailure → Task σ SyncOutcome)
    (shows : Document → Task σ SyncOutcome) (started : Nat) (ticket : Ticket)
    (result : Except Breakdown Analysis) :
    settleBy host (fun reason => seen host (falls reason)) (fun document => seen host (shows document))
        started ticket result =
      seen host (settleBy host falls shows started ticket result) := by
  simp only [settleBy, judgeBy_seen, seen_bind]

theorem readBy_seen (falls : ReadFailure → Task σ SyncOutcome)
    (shows : Nat → Document → Task σ SyncOutcome) :
    readBy host code (fun reason => seen host (falls reason))
        (fun started document => seen host (shows started document)) =
      seen host (readBy host code falls shows) := by
  simp only [readBy, seen_bind]
  refine bind_congr fun started => bind_congr fun engine => ?_
  split
  · rw [seen_bind]
  · simp only [settleBy_seen, seen_bind]

theorem syncBoard_eq_seen :
    syncBoard host code cursor = seen host (readUnseen host code cursor) := by
  rw [syncBoard_eq_readBy, readUnseen, ← readBy_seen]
  simp only [fallBack_eq_seen, showDocument_eq_seen]

end Look

theorem handle_cases (host : Host σ) (event : Event) :
    event = .textBlur ∧ handle host event = force host .toBoard ∨
      event ≠ .textBlur ∧ (handle host event = force host .toCode ∨
        ∃ direction, handle host event = request host direction) := by
  cases event with
  | textBlur => exact .inl ⟨rfl, rfl⟩
  | actionReordered => exact .inr ⟨nofun, .inl rfl⟩
  | textInput => exact .inr ⟨nofun, .inr ⟨.toBoard, rfl⟩⟩
  | _ => exact .inr ⟨nofun, .inr ⟨.toCode, rfl⟩⟩

theorem manual_toCode (host : Host σ) : manual host .toCode = force host .toCode := rfl

def single (task : Task σ SyncOutcome) : Task σ (List SyncOutcome) := do return [← task]

theorem single_ends {task : Task σ SyncOutcome} {session : Session σ}
    {value : List SyncOutcome → Session σ → Prop} {fault : Fault → Session σ → Prop}
    (ends : task.Ends session (fun outcome => value [outcome]) fault) :
    (single task).Ends session value fault :=
  .bind ends

theorem snd_single (task : Task σ SyncOutcome) (session : Session σ) :
    (single task session).2 = (task session).2 := by
  rw [single, Task.bind_apply]
  obtain ⟨_ | outcome, after⟩ := task session <;> rfl

def runDue (timer : Engine → Timer) (update : Engine → Timer → Engine) (now : Nat)
    (sync : Task σ SyncOutcome) : Task σ (List SyncOutcome) := do
  if ← takeDue timer update now then single sync else return []

section Due

variable {timer : Engine → Timer} {update : Engine → Timer → Engine} {now : Nat}
  {sync : Task σ SyncOutcome} {session : Session σ}

theorem takeDue_ends {value : Bool → Session σ → Prop} {fault : Fault → Session σ → Prop}
    (holds : value ((timer session.engine).takeDue now).1.isSome
      { session with engine := update session.engine ((timer session.engine).takeDue now).2 }) :
    (takeDue timer update now).Ends session value fault :=
  .bind (.engine (.bind (.modifyEngine (.pure holds))))

variable {value : List SyncOutcome → Session σ → Prop} {fault : Fault → Session σ → Prop}

theorem runDue_ends
    (early : value []
      { session with engine := update session.engine ((timer session.engine).takeDue now).2 })
    (due : sync.Ends
      { session with engine := update session.engine ((timer session.engine).takeDue now).2 }
      (fun outcome => value [outcome]) fault) :
    (runDue timer update now sync).Ends session value fault := by
  refine .bind (takeDue_ends ?_)
  split
  · exact single_ends due
  · exact early

theorem runDue_ends_of_idle (idle : (timer session.engine).isPending = false)
    (early : value []
      { session with engine := update session.engine ((timer session.engine).takeDue now).2 }) :
    (runDue timer update now sync).Ends session value fault := by
  refine .bind (takeDue_ends ?_)
  split
  · rename_i fired
    obtain ⟨deadline, pending, _⟩ := Timer.isSome_takeDue_iff.1 fired
    rw [Timer.isPending, pending] at idle
    cases idle
  · exact early

end Due

def renewReport (now : Nat) : Task σ Unit := do
  if ← takeDue metricsTimer ({ · with metricsTimer := · }) now then
    Task.modifyEngine fun engine =>
      { engine with
        metricsTimer := (engine.metricsTimer.schedule (now + engine.config.metricsInterval)).2 }

theorem renewReport_ends {now : Nat} {session : Session σ} {value : Unit → Session σ → Prop}
    {fault : Fault → Session σ → Prop}
    (holds : ∀ timer,
      value () { session with engine := { session.engine with metricsTimer := timer } }) :
    (renewReport now).Ends session value fault := by
  refine .bind (takeDue_ends ?_)
  split
  · exact .modifyEngine (holds _)
  · exact holds _

theorem poll_eq (host : Host σ) :
    poll host = (do
      let now ← Task.now host
      let first ← runDue codeDebounce ({ · with codeDebounce := · }) now (toBoard host)
      let second ← runDue boardDebounce ({ · with boardDebounce := · }) now (toCode host)
      renewReport now
      return first ++ second) := by
  have choice {α β : Type} (condition : Prop) [Decidable condition] (one other : Task σ α)
      (next : α → Task σ β) : (if condition then one else other) >>= next =
        if condition then one >>= next else other >>= next := by
    split <;> rfl
  simp only [poll, runDue, renewReport, single, choice, bind_assoc, pure_bind]

section Keeps

variable {holds : Session σ → Prop} {timer : Engine → Timer} {update : Engine → Timer → Engine}
  {now : Nat}

theorem keeps_single {task : Task σ SyncOutcome} (kept : task.Keeps holds) :
    (single task).Keeps holds :=
  .bind kept fun _ => .pure _

theorem keeps_runDue {sync : Task σ SyncOutcome}
    (taken : ∀ session, holds session → holds
      { session with engine := update session.engine ((timer session.engine).takeDue now).2 })
    (kept : sync.Keeps holds) : (runDue timer update now sync).Keeps holds :=
  fun session first => runDue_ends (taken session first) (kept _ (taken session first))

theorem keeps_renewReport
    (renewed : ∀ session timer, holds session → holds
      { session with engine := { session.engine with metricsTimer := timer } }) :
    (renewReport now).Keeps holds :=
  fun session first => renewReport_ends fun timer => renewed session timer first

end Keeps

end Engine

end Lifeline
