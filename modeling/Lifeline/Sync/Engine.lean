import Lifeline.Source.Extract
import Lifeline.Storyboard.Difference
import Lifeline.Storyboard.Render
import Lifeline.Sync.Config
import Lifeline.Sync.Host
import Lifeline.Sync.Metrics
import Lifeline.Sync.Timer

/-! The engine that keeps a host's text and storyboard in agreement.

A synchronization reads one side and writes the other. It remembers what it has seen, so that its own
writes do not come back as changes. A text that cannot be read in full is read line by line instead.
Faults are counted, and the engine pauses itself when there are too many. What has been done before a
fault stays done. -/

set_option autoImplicit false

namespace Lifeline

inductive Phase where
  | idle
  | running (direction : Direction)
  | paused
  deriving DecidableEq, Repr

namespace Phase

def word : Phase → String
  | .idle => "idle"
  | .running .toBoard => "syncing-code-to-gui"
  | .running .toCode => "syncing-gui-to-code"
  | .paused => "paused"

end Phase

inductive ReadFailure where
  | invalid (errors : Nat)
  | timeout (elapsed : Nat)
  | attemptsExceeded
  | broken (breakdown : Breakdown)
  deriving DecidableEq, Repr

def ReadFailure.message : ReadFailure → String
  | .invalid errors => "Parse failed with " ++ toString errors ++ " error(s)"
  | .timeout elapsed => "Timeout after " ++ toString (elapsed / Config.nanosPerMilli) ++ " ms"
  | .attemptsExceeded => "Max attempts exceeded"
  | .broken breakdown => "Parser error: " ++ breakdown.message

inductive SkipReason where
  | paused | rateLimited
  deriving DecidableEq, Repr

def SkipReason.word : SkipReason → String
  | .paused => "paused"
  | .rateLimited => "rate-limited"

structure SyncError where
  direction : Direction
  fault : Fault
  deriving DecidableEq, Repr

def SyncError.message (error : SyncError) : String :=
  match error.fault with
  | .refused reason => error.direction.word ++ " sync failed in host: " ++ reason
  | .broken breakdown => error.direction.word ++ " sync panicked: " ++ breakdown.message

inductive SyncOutcome where
  | applied (direction : Direction) (duration : Nat)
  /-- The text was read line by line; so many actors and messages were found. -/
  | fallback (reason : ReadFailure) (actors messages : Nat)
  | unchanged
  | scheduled (direction : Direction) (deadline : Nat)
  | skipped (reason : SkipReason)
  | failed (error : SyncError)
  deriving DecidableEq, Repr

namespace SyncOutcome

def isApplied : SyncOutcome → Bool
  | .applied .. => true
  | _ => false

def isSkipped : SyncOutcome → Bool
  | .skipped _ => true
  | _ => false

end SyncOutcome

structure Engine where
  config : Config
  phase : Phase
  codeDebounce : Timer
  boardDebounce : Timer
  parseTimeout : Timer
  metricsTimer : Timer
  /-- The text that the storyboard is known to agree with. -/
  syncedCode : Option String
  /-- The storyboard that the text is known to agree with. -/
  syncedBoard : Option Storyboard
  document : Option Document
  lastParseAt : Option Nat
  parseAttempts : Nat
  errorCount : Nat
  metrics : Metrics

namespace Engine

def new (config : Config) : Engine where
  config := config
  phase := .idle
  codeDebounce := .empty
  boardDebounce := .empty
  parseTimeout := .empty
  metricsTimer := .empty
  syncedCode := none
  syncedBoard := none
  document := none
  lastParseAt := none
  parseAttempts := 0
  errorCount := 0
  metrics := .new config.metricsWindow

def nextDeadline (engine : Engine) : Option Nat :=
  ([engine.codeDebounce.deadline, engine.boardDebounce.deadline,
    engine.metricsTimer.deadline].filterMap id).min?

def halt (engine : Engine) : Engine :=
  { engine with
    codeDebounce := engine.codeDebounce.cancel
    boardDebounce := engine.boardDebounce.cancel
    phase := .paused }

end Engine

structure Session (σ : Type) where
  engine : Engine
  world : σ

/-- A computation on a session, which a fault can end. -/
abbrev Task (σ α : Type) := ExceptT Fault (StateM (Session σ)) α

namespace Task

variable {σ α : Type}

def engine : Task σ Engine := return (← get).engine

def modifyEngine (change : Engine → Engine) : Task σ Unit :=
  modify fun session => { session with engine := change session.engine }

def now (host : Host σ) : Task σ Nat := return host.now (← get).world

def command (call : Command σ) : Task σ Unit := fun session =>
  let (result, world) := call session.world
  (result, { session with world := world })

def attempt (call : Query σ α) : Task σ (Except Breakdown α) := fun session =>
  let (result, world) := call session.world
  (.ok result, { session with world := world })

def query (call : Query σ α) : Task σ α := do
  match ← attempt call with
  | .ok value => return value
  | .error breakdown => throw (.broken breakdown)

/-- Goes on with what a fault leaves behind. -/
def recover (task : Task σ α) (handle : Fault → Task σ α) : Task σ α := fun session =>
  match task session with
  | (.ok value, session) => (.ok value, session)
  | (.error fault, session) => handle fault session

/-- Runs a task in a phase and leaves the phase afterwards, whatever became of the task, unless the
task has changed it. -/
def during (phase : Phase) (task : Task σ α) : Task σ α := fun session =>
  let (result, session) := task { session with engine := { session.engine with phase := phase } }
  if session.engine.phase = phase then
    (result, { session with engine := { session.engine with phase := .idle } })
  else (result, session)

/-- A task goes on only after what succeeds; a fault keeps the session as it is then. -/
theorem bind_apply {β : Type} (task : Task σ α) (next : α → Task σ β) (session : Session σ) :
    (task >>= next) session =
      match task session with
      | (.ok value, session) => next value session
      | (.error fault, session) => (.error fault, session) := by
  change (ExceptT.bind task next).run session = _
  simp only [ExceptT.bind, ExceptT.mk, ExceptT.run, bind, StateT.bind]
  rcases task session with ⟨_ | _, _⟩ <;> rfl

end Task

namespace Engine

variable {σ : Type} (host : Host σ)

def countError : Task σ Unit := do
  Task.modifyEngine fun engine =>
    { engine with
      errorCount := engine.errorCount + 1
      metrics := { engine.metrics with errors := engine.metrics.errors + 1 } }
  let engine ← Task.engine
  if engine.config.maxErrors ≤ engine.errorCount then
    Task.modifyEngine halt
    Task.query (host.notify (.paused engine.errorCount))

def counted (direction : Direction) (task : Task σ SyncOutcome) : Task σ SyncOutcome :=
  Task.recover task fun fault => do
    countError host
    return .failed ⟨direction, fault⟩

/-- Gives the host a new storyboard, and its selection back as far as it fits the text. -/
def writeBoard (board : Storyboard) (code : String) (cursor : Selection) : Task σ Unit := do
  Task.command (host.applyBoard board)
  Task.command host.refresh
  Task.query (host.setCursor (cursor.clamp code.toList))

def fallBack (code : String) (reason : ReadFailure) (cursor : Selection) : Task σ SyncOutcome := do
  let extracted := extract code
  let board := extracted.document.project.onto (← Task.query host.board)
  writeBoard host board code cursor
  Task.modifyEngine fun engine =>
    { engine with
      metrics := { engine.metrics with fallbacks := engine.metrics.fallbacks + 1 }
      -- A text that was turned away unread can still be read when it is asked for again.
      syncedCode := if reason = .attemptsExceeded then engine.syncedCode else some code }
  let board ← Task.query host.board
  Task.modifyEngine fun engine => { engine with syncedBoard := some board }
  return .fallback reason extracted.actors.names.length extracted.messages.length

def showDocument (code : String) (document : Document) (cursor : Selection) (started : Nat) :
    Task σ SyncOutcome := do
  let board := document.project.onto (← Task.query host.board)
  writeBoard host board code cursor
  let duration := (← Task.now host) - started
  Task.modifyEngine fun engine =>
    { engine with
      metrics := engine.metrics.record .toBoard duration
      parseAttempts := 0
      errorCount := 0
      syncedCode := some code
      document := some document }
  let board ← Task.query host.board
  Task.modifyEngine fun engine => { engine with syncedBoard := some board }
  return .applied .toBoard duration

def syncBoard (code : String) (cursor : Selection) : Task σ SyncOutcome := do
  let started ← Task.now host
  let engine ← Task.engine
  if engine.config.maxParseAttempts ≤ engine.parseAttempts then
    -- The text after one that is turned away has all attempts again.
    Task.modifyEngine fun engine => { engine with parseAttempts := 0 }
    fallBack host code .attemptsExceeded cursor
  else
    let (ticket, race) := engine.parseTimeout.schedule (started + engine.config.parseTimeout)
    Task.modifyEngine fun engine =>
      { engine with
        parseAttempts := engine.parseAttempts + 1
        lastParseAt := some started
        parseTimeout := race }
    let analysis ← Task.attempt (host.analyze (repair code engine.config.maxLines).code)
    let finished ← Task.now host
    let (inTime, settled) := (← Task.engine).parseTimeout.finish ticket finished
    Task.modifyEngine fun engine => { engine with parseTimeout := settled }
    match analysis with
    | .error breakdown =>
      countError host
      fallBack host code (.broken breakdown) cursor
    | .ok analysis =>
      if inTime then
        match analysis.document, analysis.issues with
        | some document, [] => showDocument host code document cursor started
        | _, issues => fallBack host code (.invalid (max issues.length 1)) cursor
      else
        Task.modifyEngine fun engine =>
          { engine with metrics := { engine.metrics with timeouts := engine.metrics.timeouts + 1 } }
        fallBack host code (.timeout (finished - started)) cursor

def toBoard : Task σ SyncOutcome := do
  if (← Task.engine).phase = .paused then return .skipped .paused
  let code ← Task.query host.code
  let engine ← Task.engine
  if engine.syncedCode = some code then return .unchanged
  let now ← Task.now host
  if engine.lastParseAt.any (now - · < engine.config.minParseInterval) then
    Task.modifyEngine fun engine =>
      { engine with
        metrics := { engine.metrics with rateLimited := engine.metrics.rateLimited + 1 } }
    return .skipped .rateLimited
  let cursor ← Task.query host.cursor
  Task.during (.running .toBoard) do
    let outcome ← counted host .toBoard (syncBoard host code cursor)
    -- What has been written may have raised events, which would write it back.
    Task.query host.drainEvents
    return outcome

def writeCode (board : Storyboard) (old new : String) (started : Nat) : Task σ SyncOutcome := do
  let cursor ← Task.query host.cursor
  Task.command (host.setCode new)
  Task.query (host.setCursor (cursor.shift old.toList new.toList))
  Task.command host.refresh
  let duration := (← Task.now host) - started
  Task.modifyEngine fun engine =>
    { engine with
      metrics := engine.metrics.record .toCode duration
      errorCount := 0
      syncedCode := some new
      syncedBoard := some board }
  return .applied .toCode duration

def syncCode : Task σ SyncOutcome := do
  let started ← Task.now host
  let board ← Task.query host.board
  let engine ← Task.engine
  if engine.syncedBoard.any fun synced => !(BoardDifference.between synced board).affectsCode then
    Task.modifyEngine fun engine => { engine with syncedBoard := some board }
    return .unchanged
  let old ← Task.query host.code
  let new := board.render
  if new = old then
    Task.modifyEngine fun engine => { engine with syncedCode := some new, syncedBoard := some board }
    return .unchanged
  writeCode host board old new started

def toCode : Task σ SyncOutcome := do
  if (← Task.engine).phase = .paused then return .skipped .paused
  Task.during (.running .toCode) do
    let outcome ← counted host .toCode (syncCode host)
    Task.query host.drainEvents
    return outcome

def force (direction : Direction) : Task σ SyncOutcome := do
  match direction with
  | .toBoard =>
    Task.modifyEngine fun engine => { engine with codeDebounce := engine.codeDebounce.cancel }
    toBoard host
  | .toCode =>
    Task.modifyEngine fun engine => { engine with boardDebounce := engine.boardDebounce.cancel }
    toCode host

/-- Schedules a synchronization; a later request in the same direction puts it off. -/
def request (direction : Direction) : Task σ SyncOutcome := do
  let engine ← Task.engine
  if engine.phase = .paused then return .skipped .paused
  let deadline := (← Task.now host) + engine.config.debounce
  match direction with
  | .toBoard =>
    Task.modifyEngine fun engine =>
      { engine with codeDebounce := (engine.codeDebounce.schedule deadline).2 }
  | .toCode =>
    Task.modifyEngine fun engine =>
      { engine with boardDebounce := (engine.boardDebounce.schedule deadline).2 }
  return .scheduled direction deadline

/-- Synchronizes on demand. A text is read even if it looks unchanged. -/
def manual (direction : Direction) : Task σ SyncOutcome := do
  if direction = .toBoard then
    Task.modifyEngine fun engine => { engine with syncedCode := none }
  force host direction

def handle : Event → Task σ SyncOutcome
  | .textInput => request host .toBoard
  | .textBlur => force host .toBoard
  | .actorSelectionChanged | .actionChanged | .actionAdded | .actionRemoved => request host .toCode
  | .actionReordered => force host .toCode

/-- The first synchronization: a text comes before the storyboard if there is one. -/
def initial : Task σ SyncOutcome := do
  let now ← Task.now host
  Task.modifyEngine fun engine =>
    { engine with
      metricsTimer := (engine.metricsTimer.schedule (now + engine.config.metricsInterval)).2 }
  if (Text.trim (← Task.query host.code).toList).isEmpty then force host .toCode
  else force host .toBoard

def takeDue (timer : Engine → Timer) (update : Engine → Timer → Engine) (now : Nat) :
    Task σ Bool := do
  let (fired, left) := (timer (← Task.engine)).takeDue now
  Task.modifyEngine (update · left)
  return fired.isSome

def poll : Task σ (List SyncOutcome) := do
  let now ← Task.now host
  let first ←
    if ← takeDue codeDebounce ({ · with codeDebounce := · }) now then pure [← toBoard host]
    else pure []
  let second ←
    if ← takeDue boardDebounce ({ · with boardDebounce := · }) now then pure [← toCode host]
    else pure []
  if ← takeDue metricsTimer ({ · with metricsTimer := · }) now then
    Task.modifyEngine fun engine =>
      { engine with
        metricsTimer := (engine.metricsTimer.schedule (now + engine.config.metricsInterval)).2 }
  return first ++ second

def pause : Task σ Unit :=
  Task.modifyEngine fun engine => if engine.phase = .paused then engine else engine.halt

def resume : Task σ SyncOutcome := do
  Task.modifyEngine fun engine =>
    { engine with
      phase := if engine.phase = .paused then .idle else engine.phase
      errorCount := 0
      parseAttempts := 0
      syncedCode := none
      lastParseAt := none }
  Task.query (host.notify .resumed)
  force host .toBoard

end Engine

end Lifeline
