import Lifeline.Proofs.Sync.Attended
import Lifeline.Proofs.Sync.Budget

/-! How often and how many times a text is read.

Two readings are apart by the shortest interval that the settings allow, unless the engine is resumed
between them. Readings that come to nothing are counted, and there are no more of them than the settings
allow until a text has been shown as it reads, until one has been turned away for their number, or until
the engine is resumed. -/

set_option autoImplicit false

namespace Lifeline

namespace SyncOutcome

open Budget (Entry)

/-- What comes of a text for which the analyzer has been started at some times: it has been shown as it
reads, or has been turned away for the number of readings. What is turned away can fail to be shown. -/
def ending (times : List Nat) : SyncOutcome → Option Entry
  | .applied .toBoard _ => some .shown
  | .fallback .attemptsExceeded _ _ => some .turnedAway
  | .failed _ => if times = [] then some .turnedAway else none
  | _ => none

def entries (times : List Nat) (outcome : SyncOutcome) : List Entry :=
  times.map .read ++ (outcome.ending times).toList

/-- Whether a text has been turned away after too many readings, shown line by line if the host does not
refuse it, unless it was not looked at in the first place. -/
def TurnsAway : SyncOutcome → Prop
  | .fallback reason _ _ => reason = .attemptsExceeded
  | .failed error => error.direction = .toBoard ∧ ∃ reason, error.fault = .refused reason
  | .skipped _ | .unchanged => True
  | _ => False

end SyncOutcome

def Call.resumption (call : Call) : List Budget.Entry := if call = .resume then [.resumed] else []

/-- What a call enters. A resumption comes before the reading that it has done. -/
def Call.entries {σ : Type} (host : Host σ) (starts : σ → List Nat) (session : Session σ)
    (call : Call) : List Budget.Entry :=
  let after := (call.perform host session).2
  let times := (starts after.world).drop (starts session.world).length
  call.resumption ++ times.map .read ++ (call.readings host session).filterMap (·.ending times)

/-- Whether a session can come to be from a new engine by any calls while its clock does not go back,
with all entries on the way, oldest first. -/
inductive Charges {σ : Type} (host : Host σ) (starts : σ → List Nat) (config : Config) :
    List Budget.Entry → Session σ → Prop where
  | start (world : σ) : Charges host starts config [] ⟨.new config, world⟩
  | call {entries : List Budget.Entry} {session : Session σ} (call : Call) :
      Charges host starts config entries session →
      Charges host starts config (entries ++ call.entries host starts session)
        (call.perform host session).2
  | edit {entries : List Budget.Entry} {session : Session σ} (world : σ) :
      Charges host starts config entries session →
      host.now session.world ≤ host.now world → starts world = starts session.world →
      Charges host starts config entries { session with world := world }

namespace Engine

variable {σ : Type} {host : Host σ} {starts : σ → List Nat} {config : Config} {budget : Budget}
  {log : List Nat} {session : Session σ} {code : String} {cursor : Selection}

/-- Whether a session agrees with a budget and a log. -/
structure Tracks (host : Host σ) (starts : σ → List Nat) (config : Config) (budget : Budget)
    (log : List Nat) (session : Session σ) : Prop where
  config_eq : session.engine.config = config
  spent : session.engine.parseAttempts = budget.spent
  last : session.engine.lastParseAt = budget.last
  clock : ∀ started ∈ budget.last, started ≤ host.now session.world
  log_eq : starts session.world = log

def Refused (host : Host σ) (starts : σ → List Nat) (config : Config) (budget : Budget)
    (log : List Nat) (fault : Fault) (session : Session σ) : Prop :=
  (∃ reason, fault = .refused reason) ∧ Tracks host starts config budget log session

def Enters (host : Host σ) (starts : σ → List Nat) (config : Config) (budget : Budget)
    (log : List Nat) (outcome : SyncOutcome) (session : Session σ) : Prop :=
  ∃ times, Tracks host starts config (budget.after (outcome.entries times)) (log ++ times) session ∧
    budget.AdmitsAll config (outcome.entries times) ∧ (times = [] → outcome.TurnsAway)

theorem Enters.stable {outcome : SyncOutcome}
    (enters : Enters host starts config budget log outcome session) :
    ∃ budget' log', Tracks host starts config budget' log' session ∧
      ∀ after, Tracks host starts config budget' log' after →
        Enters host starts config budget log outcome after := by
  obtain ⟨times, tracks, entered⟩ := enters
  exact ⟨_, _, tracks, fun _ tracks => ⟨times, tracks, entered⟩⟩

theorem Tracks.enters {outcome : SyncOutcome}
    (tracks : Tracks host starts config budget log session) (unended : outcome.ending [] = none)
    (away : outcome.TurnsAway) : Enters host starts config budget log outcome session := by
  have none : outcome.entries [] = [] := by simp [SyncOutcome.entries, unended]
  refine ⟨[], ?_, ?_, fun _ => away⟩
  · rw [none, List.append_nil]
    exact tracks
  · rw [none]
    trivial

theorem Tracks.enters_turnedAway {outcome : SyncOutcome}
    (spent : config.maxParseAttempts ≤ budget.spent)
    (tracks : Tracks host starts config (budget.add .turnedAway) log session)
    (ended : outcome.ending [] = some .turnedAway) (away : outcome.TurnsAway) :
    Enters host starts config budget log outcome session := by
  have only : outcome.entries [] = [.turnedAway] := by simp [SyncOutcome.entries, ended]
  refine ⟨[], ?_, ?_, fun _ => away⟩
  · rw [only, List.append_nil]
    exact tracks
  · rw [only]
    exact ⟨spent, trivial⟩

theorem Tracks.enters_read {started : Nat} {outcome : SyncOutcome}
    (admits : budget.Admits config (.read started))
    (ended : outcome.ending [started] = none ∨ outcome.ending [started] = some .shown)
    (tracks : Tracks host starts config
      ((budget.add (.read started)).after (outcome.ending [started]).toList) (log ++ [started])
      session) : Enters host starts config budget log outcome session := by
  refine ⟨[started], tracks, ?_, nofun⟩
  refine (Budget.admitsAll_append budget [.read started] _).2 ⟨⟨admits, trivial⟩, ?_⟩
  obtain unended | shown := ended
  · rw [unended]
    trivial
  · rw [shown]
    exact ⟨trivial, trivial⟩

theorem Tracks.of_world (tracks : Tracks host starts config budget log session) {world : σ}
    (later : host.now session.world ≤ host.now world) (same : starts world = starts session.world) :
    Tracks host starts config budget log { session with world := world } :=
  { tracks with
    clock := fun started last => Nat.le_trans (tracks.clock started last) later
    log_eq := same.trans tracks.log_eq }

theorem bind_query {α β : Type} {call : Query σ α} {next : α → Task σ β}
    {value : β → Session σ → Prop} {fault : Fault → Session σ → Prop} (returns : host.Returns call)
    (silent : ∀ world, starts (call world).2 = starts world)
    (tracks : Tracks host starts config budget log session)
    (goes : ∀ result after, Tracks host starts config budget log after →
      (next result).Ends after value fault) : (Task.query call >>= next).Ends session value fault := by
  have returns := returns session.world
  have silent := silent session.world
  refine .bind (.query (fun result world called => ?_) fun breakdown world called => ?_) <;>
    rw [called] at returns silent
  · exact goes result _ (tracks.of_world returns.1 silent)
  · exact absurd rfl (returns.2 breakdown)

theorem bind_command {β : Type} {call : Command σ} {next : Unit → Task σ β}
    {value : β → Session σ → Prop} (concludes : host.Concludes call)
    (silent : ∀ world, starts (call world).2 = starts world)
    (tracks : Tracks host starts config budget log session)
    (goes : ∀ after, Tracks host starts config budget log after →
      (next ()).Ends after value (Refused host starts config budget log)) :
    (Task.command call >>= next).Ends session value (Refused host starts config budget log) := by
  have concludes := concludes session.world
  have silent := silent session.world
  refine .bind (.command (fun world called => ?_) fun fault world called => ?_) <;>
    rw [called] at concludes silent
  · exact goes _ (tracks.of_world concludes.1 silent)
  · refine ⟨?_, tracks.of_world concludes.1 silent⟩
    cases fault with
    | refused reason => exact ⟨reason, rfl⟩
    | broken breakdown => exact absurd rfl (concludes.2 breakdown)

section Steady

variable (steady : host.Steady) (logs : host.Logs starts)
include steady logs

/-! ## What a synchronization enters -/

theorem tracks_countError (tracks : Tracks host starts config budget log session) :
    (countError host).Ends session (fun _ => Tracks host starts config budget log)
      fun _ _ => False := by
  refine .bind (.modifyEngine (.bind (.engine ?_)))
  split
  · refine .bind (.modifyEngine ?_)
    rw [← bind_pure (Task.query _)]
    exact bind_query (steady.notify _) (logs.notify _) { tracks with } fun _ _ tracks => tracks
  · exact .pure { tracks with }

theorem bind_writeBoard {β : Type} {board : Storyboard} {next : Unit → Task σ β}
    {value : β → Session σ → Prop} (tracks : Tracks host starts config budget log session)
    (goes : ∀ after, Tracks host starts config budget log after →
      (next ()).Ends after value (Refused host starts config budget log)) :
    (writeBoard host board code cursor >>= next).Ends session value
      (Refused host starts config budget log) := by
  rw [writeBoard]
  simp only [bind_assoc]
  refine bind_command (steady.applyBoard board) (logs.applyBoard board) tracks fun _ tracks => ?_
  refine bind_command steady.refresh logs.refresh tracks fun _ tracks => ?_
  exact bind_query (steady.setCursor _) (logs.setCursor _) tracks fun _ _ tracks => goes _ tracks

theorem tracks_fallBack {reason : ReadFailure}
    (tracks : Tracks host starts config budget log session) :
    (fallBack host code reason cursor).Ends session
      (fun outcome after => (∃ actors messages, outcome = .fallback reason actors messages) ∧
        Tracks host starts config budget log after)
      (Refused host starts config budget log) := by
  refine bind_query steady.board logs.board tracks fun board _ tracks => ?_
  refine bind_writeBoard steady logs tracks fun _ tracks => .bind (.modifyEngine ?_)
  refine bind_query steady.board logs.board { tracks with } fun _ _ tracks => ?_
  exact .bind (.modifyEngine (.pure ⟨⟨_, _, rfl⟩, { tracks with }⟩))

theorem tracks_showDocument {document : Document} {started : Nat}
    (tracks : Tracks host starts config budget log session) :
    (showDocument host code document cursor started).Ends session
      (fun outcome after => (∃ duration, outcome = .applied .toBoard duration) ∧
        Tracks host starts config (budget.add .shown) log after)
      (Refused host starts config budget log) := by
  refine bind_query steady.board logs.board tracks fun board _ tracks => ?_
  refine bind_writeBoard steady logs tracks fun written tracks => ?_
  refine .bind (.now (.bind (.modifyEngine ?_)))
  have shown (engine : Engine) (config_eq : engine.config = config)
      (none : engine.parseAttempts = 0) (last : engine.lastParseAt = budget.last) :
      Tracks host starts config (budget.add .shown) log ⟨engine, written.world⟩ :=
    ⟨config_eq, none, last, tracks.clock, tracks.log_eq⟩
  refine bind_query steady.board logs.board (shown _ tracks.config_eq rfl tracks.last)
    fun _ _ tracks => ?_
  exact .bind (.modifyEngine (.pure ⟨⟨_, rfl⟩, { tracks with }⟩))

theorem tracks_judge {started finished : Nat} {inTime : Bool} {result : Except Breakdown Analysis}
    (tracks : Tracks host starts config budget log session) :
    (judge host code cursor started finished inTime result).Ends session
      (fun outcome after =>
        (outcome.ending [started] = none ∨ outcome.ending [started] = some .shown) ∧
          Tracks host starts config (budget.after (outcome.ending [started]).toList) log after)
      (Refused host starts config budget log) := by
  have fallen {reason : ReadFailure} {session : Session σ} (other : reason ≠ .attemptsExceeded)
      (tracks : Tracks host starts config budget log session) :
      (fallBack host code reason cursor).Ends session
        (fun outcome after =>
          (outcome.ending [started] = none ∨ outcome.ending [started] = some .shown) ∧
            Tracks host starts config (budget.after (outcome.ending [started]).toList) log after)
        (Refused host starts config budget log) := by
    refine (tracks_fallBack steady logs tracks).mono (fun outcome after fell => ?_) fun _ _ => id
    obtain ⟨⟨actors, messages, rfl⟩, tracks⟩ := fell
    have unended : (SyncOutcome.fallback reason actors messages).ending [started] = none := by
      cases reason with
      | attemptsExceeded => exact absurd rfl other
      | _ => rfl
    rw [unended]
    exact ⟨.inl rfl, tracks⟩
  unfold judge judgeBy
  split
  · exact .bind ((tracks_countError steady logs tracks).mono (fun _ _ => fallen nofun)
      fun _ _ => False.elim)
  · split
    · split
      · refine (tracks_showDocument steady logs tracks).mono (fun outcome after shown => ?_)
          fun _ _ => id
        obtain ⟨⟨duration, rfl⟩, tracks⟩ := shown
        exact ⟨.inr rfl, tracks⟩
      · exact fallen nofun tracks
    · exact .bind (.modifyEngine (fallen nofun { tracks with }))

theorem enters_syncBoard (tracks : Tracks host starts config budget log session)
    (ripe : ∀ earlier ∈ budget.last, earlier + config.minParseInterval ≤ host.now session.world) :
    (syncBoard host code cursor).Ends session (Enters host starts config budget log)
      fun fault after => (∃ reason, fault = .refused reason) ∧
        Enters host starts config budget log (.failed ⟨.toBoard, fault⟩) after := by
  apply syncBoard_ends
  · intro spent
    rw [tracks.config_eq, tracks.spent] at spent
    have away : Tracks host starts config (budget.add .turnedAway) log
        { session with engine := { session.engine with parseAttempts := 0 } } :=
      { tracks with spent := rfl }
    refine (tracks_fallBack steady logs away).mono (fun outcome after fell => ?_) ?_
    · obtain ⟨⟨actors, messages, rfl⟩, tracks⟩ := fell
      exact tracks.enters_turnedAway spent rfl rfl
    · rintro fault after ⟨⟨reason, rfl⟩, tracks⟩
      exact ⟨⟨reason, rfl⟩, tracks.enters_turnedAway spent rfl ⟨rfl, reason, rfl⟩⟩
  · intro left read
    have admits : budget.Admits config (.read (host.now session.world)) := by
      rw [tracks.config_eq, tracks.spent] at left
      exact ⟨left, ripe⟩
    have entered : Tracks host starts config (budget.add (.read (host.now session.world)))
        (log ++ [host.now session.world])
        ⟨session.engine.attempted (host.now session.world), read.2⟩ :=
      { config_eq := tracks.config_eq
        spent := congrArg (· + 1) tracks.spent
        last := rfl
        clock := fun started same => by
          cases same
          exact steady.analyze _ session.world
        log_eq := by
          rw [← tracks.log_eq]
          exact logs.analyze _ session.world }
    refine (tracks_judge steady logs entered).mono (fun outcome after judged => ?_) ?_
    · exact judged.2.enters_read admits judged.1
    · rintro fault after ⟨⟨reason, rfl⟩, tracks⟩
      exact ⟨⟨reason, rfl⟩, tracks.enters_read admits (.inl rfl)⟩

theorem ends_running_of_tracks {direction : Direction} {task : Task σ SyncOutcome}
    {holds : SyncOutcome → Session σ → Prop}
    (stable : ∀ outcome before, holds outcome before → ∃ budget log,
      Tracks host starts config budget log before ∧
        ∀ after, Tracks host starts config budget log after → holds outcome after)
    (runs : task.Ends { session with engine := { session.engine with phase := .running direction } }
      holds fun fault after => holds (.failed ⟨direction, fault⟩) after) :
    (Task.during (.running direction) do
      let outcome ← counted host direction task
      Task.query host.drainEvents
      return outcome).Ends session holds fun _ _ => False := by
  have drained {outcome : SyncOutcome} {before : Session σ} (held : holds outcome before) :
      (do Task.query host.drainEvents; return outcome : Task σ SyncOutcome).Ends before
        (fun outcome after => holds outcome (Task.leave (.running direction) after))
        fun _ _ => False := by
    obtain ⟨budget, log, tracks, stays⟩ := stable outcome before held
    refine bind_query steady.drainEvents logs.drainEvents tracks fun _ after tracks => ?_
    obtain ⟨phase, same⟩ := Task.exists_leave (.running direction) after
    refine .pure (stays _ ?_)
    rw [same]
    exact { tracks with }
  refine .during (.bind (.recover (runs.mono (fun outcome after held => drained held) ?_)))
  intro fault after held
  obtain ⟨budget, log, tracks, stays⟩ := stable _ after held
  exact .bind ((tracks_countError steady logs tracks).mono
    (fun _ counted tracks => .pure (drained (stays counted tracks))) fun _ _ => False.elim)

/-! ## What a call enters -/

omit steady logs in
/-- What is not too soon after an earlier time comes no sooner than an interval later. -/
theorem apart_of_unlimited {last : Option Nat} {now interval earlier : Nat}
    (unlimited : ¬ last.any (now - · < interval)) (present : earlier ∈ last)
    (early : earlier ≤ now) : earlier + interval ≤ now := by
  rw [Option.mem_def.1 present] at unlimited
  have apart : ¬ now - earlier < interval := fun soon => unlimited (decide_eq_true soon)
  omega

theorem enters_toBoard (tracks : Tracks host starts config budget log session) :
    (toBoard host).Ends session (Enters host starts config budget log) fun _ _ => False := by
  refine .bind (.engine ?_)
  split
  · exact .pure (tracks.enters rfl trivial)
  · refine bind_query steady.code logs.code tracks fun code asked tracks => .bind (.engine ?_)
    split
    · exact .pure (tracks.enters rfl trivial)
    · refine .bind (.now ?_)
      split
      · refine .bind (.modifyEngine (.pure ?_))
        exact Tracks.enters { tracks with } rfl trivial
      · rename_i unlimited
        have ripe : ∀ earlier ∈ budget.last,
            earlier + config.minParseInterval ≤ host.now asked.world := by
          intro earlier last
          rw [tracks.last, tracks.config_eq] at unlimited
          exact apart_of_unlimited unlimited last (tracks.clock earlier last)
        have later := (steady.cursor asked.world).1
        refine .bind (.query (fun cursor world called => ?_) fun breakdown world called => ?_)
        · rw [called] at later
          have silent := logs.cursor asked.world
          rw [called] at silent
          have placed := tracks.of_world later silent
          have running : Tracks host starts config budget log
              ⟨{ asked.engine with phase := .running .toBoard }, world⟩ := { placed with }
          refine ends_running_of_tracks steady logs (fun _ _ => Enters.stable) ?_
          refine (enters_syncBoard steady logs running fun earlier last => ?_).mono (fun _ _ => id)
            fun _ _ => And.right
          exact Nat.le_trans (ripe earlier last) later
        · have answered := (steady.cursor asked.world).2 breakdown
          rw [called] at answered
          exact answered rfl

theorem tracks_writeCode {board : Storyboard} {old new : String} {started : Nat}
    (tracks : Tracks host starts config budget log session) :
    (writeCode host board old new started).Ends session
      (fun _ => Tracks host starts config budget log) (Refused host starts config budget log) := by
  refine bind_query steady.cursor logs.cursor tracks fun cursor _ tracks => ?_
  refine bind_command (steady.setCode new) (logs.setCode new) tracks fun _ tracks => ?_
  refine bind_query (steady.setCursor _) (logs.setCursor _) tracks fun _ _ tracks => ?_
  refine bind_command steady.refresh logs.refresh tracks fun _ tracks => ?_
  exact .bind (.now (.bind (.modifyEngine (.pure { tracks with }))))

theorem tracks_syncCode (tracks : Tracks host starts config budget log session) :
    (syncCode host).Ends session (fun _ => Tracks host starts config budget log)
      (Refused host starts config budget log) := by
  refine .bind (.now (bind_query steady.board logs.board tracks fun board _ tracks => ?_))
  refine .bind (.engine ?_)
  split
  · exact .bind (.modifyEngine (.pure { tracks with }))
  · refine bind_query steady.code logs.code tracks fun old _ tracks => ?_
    generalize board.render = new
    dsimp only
    split
    · exact .bind (.modifyEngine (.pure { tracks with }))
    · exact tracks_writeCode steady logs tracks

theorem tracks_toCode (tracks : Tracks host starts config budget log session) :
    (toCode host).Ends session (fun _ => Tracks host starts config budget log)
      fun _ _ => False := by
  refine .bind (.engine ?_)
  split
  · exact .pure tracks
  · refine ends_running_of_tracks steady logs (fun _ _ tracks => ⟨budget, log, tracks, fun _ => id⟩) ?_
    have running : Tracks host starts config budget log
        { session with engine := { session.engine with phase := .running .toCode } } :=
      { tracks with }
    exact (tracks_syncCode steady logs running).mono (fun _ _ => id) fun _ _ => And.right

theorem enters_force (tracks : Tracks host starts config budget log session) :
    (force host .toBoard).Ends session (Enters host starts config budget log) fun _ _ => False :=
  .bind (.modifyEngine (enters_toBoard steady logs { tracks with }))

theorem tracks_force (tracks : Tracks host starts config budget log session) :
    (force host .toCode).Ends session (fun _ => Tracks host starts config budget log)
      fun _ _ => False :=
  .bind (.modifyEngine (tracks_toCode steady logs { tracks with }))

omit steady logs in
theorem tracks_request {direction : Direction}
    (tracks : Tracks host starts config budget log session) :
    (request host direction).Ends session (fun _ => Tracks host starts config budget log)
      fun _ _ => False := by
  refine .bind (.engine ?_)
  split
  · exact .pure tracks
  · refine .bind (.now ?_)
    cases direction <;> exact .bind (.modifyEngine (.pure { tracks with }))

def Enter (host : Host σ) (starts : σ → List Nat) (config : Config) (budget : Budget)
    (log : List Nat) (reads : Bool) (outcomes : List SyncOutcome) (session : Session σ) : Prop :=
  if reads then
    ∃ reading rest, outcomes = reading :: rest ∧ Enters host starts config budget log reading session
  else Tracks host starts config budget log session

omit steady logs in
theorem enter_of_reads {task : Task σ SyncOutcome} {reads : Bool} (does : reads = true)
    (enters : task.Ends session (Enters host starts config budget log) fun _ _ => False) :
    (single task).Ends session (Enter host starts config budget log reads) fun _ _ => False := by
  subst does
  exact single_ends (enters.mono (fun outcome _ entered => ⟨outcome, [], rfl, entered⟩) fun _ _ => id)

omit steady logs in
theorem enter_of_not_reads {task : Task σ SyncOutcome} {reads : Bool} (leaves : reads = false)
    (tracks : task.Ends session (fun _ => Tracks host starts config budget log) fun _ _ => False) :
    (single task).Ends session (Enter host starts config budget log reads) fun _ _ => False := by
  subst leaves
  exact single_ends (tracks.mono (fun _ _ => id) fun _ _ => id)

theorem enter_initial (tracks : Tracks host starts config budget log session) :
    (single (initial host)).Ends session
      (Enter host starts config budget log (Call.initial.reads host session)) fun _ _ => False := by
  have reads : Call.initial.reads host session = (host.code session.world).1.toOption.any
      fun text => !(Text.trim text.toList).isEmpty := rfl
  have answered := steady.code session.world
  have silent := logs.code session.world
  cases called : host.code session.world with
  | mk result world =>
    rw [called] at reads answered silent
    obtain breakdown | text := result
    · exact absurd rfl (answered.2 breakdown)
    have asked := tracks.of_world answered.1 silent
    by_cases blank : (Text.trim text.toList).isEmpty
    · refine enter_of_not_reads (by simp [reads, Except.toOption, blank])
        (.bind (.now (.bind (.modifyEngine (.bind (.answered called ?_))))))
      rw [if_pos blank]
      exact tracks_force steady logs { asked with }
    · refine enter_of_reads (by simp [reads, Except.toOption, blank])
        (.bind (.now (.bind (.modifyEngine (.bind (.answered called ?_))))))
      rw [if_neg blank]
      exact enters_force steady logs { asked with }

theorem enter_handle (raised : Event) (tracks : Tracks host starts config budget log session) :
    (single (handle host raised)).Ends session
      (Enter host starts config budget log ((Call.event raised).reads host session))
      fun _ _ => False := by
  obtain ⟨blur, same⟩ | ⟨other, same⟩ := handle_cases host raised
  · rw [same]
    exact enter_of_reads (by simp [Call.reads, blur]) (enters_force steady logs tracks)
  · have reads : (Call.event raised).reads host session = false := by simp [Call.reads, other]
    obtain same | ⟨direction, same⟩ := same <;> rw [same]
    · exact enter_of_not_reads reads (tracks_force steady logs tracks)
    · exact enter_of_not_reads reads (tracks_request tracks)

theorem tracks_pollCode (first : List SyncOutcome) (now : Nat)
    (tracks : Tracks host starts config budget log session) :
    (do
      let second ← runDue boardDebounce ({ · with boardDebounce := · }) now (toCode host)
      renewReport now
      return first ++ second : Task σ (List SyncOutcome)).Ends session
        (fun outcomes after => (∃ second, outcomes = first ++ second) ∧
          Tracks host starts config budget log after)
        fun _ _ => False := by
  refine .bind (runDue_ends ?_ ?_)
  · exact .bind (renewReport_ends fun _ => ⟨⟨[], rfl⟩, { tracks with }⟩)
  · have taken (left : Timer) : Tracks host starts config budget log
        { session with engine := { session.engine with boardDebounce := left } } := { tracks with }
    refine (tracks_toCode steady logs (taken _)).mono (fun outcome _ tracks => ?_) fun _ _ => id
    exact .bind (renewReport_ends fun _ => ⟨⟨[outcome], rfl⟩, { tracks with }⟩)

theorem enter_poll (tracks : Tracks host starts config budget log session) :
    (poll host).Ends session
      (Enter host starts config budget log (Call.poll.reads host session)) fun _ _ => False := by
  have reads : Call.poll.reads host session =
      (session.engine.codeDebounce.takeDue (host.now session.world)).1.isSome := rfl
  have taken (left : Timer) : Tracks host starts config budget log
      { session with engine := { session.engine with codeDebounce := left } } := { tracks with }
  rw [poll_eq]
  refine .bind (.now (.bind (.bind (takeDue_ends ?_))))
  rw [← reads]
  cases Call.poll.reads host session with
  | true =>
    refine single_ends ((enters_toBoard steady logs (taken _)).mono (fun reading _ entered => ?_)
      fun _ _ => id)
    obtain ⟨budget', log', tracks, stays⟩ := entered.stable
    refine (tracks_pollCode steady logs [reading] _ tracks).mono (fun outcomes after ended => ?_)
      fun _ _ => id
    obtain ⟨⟨second, rfl⟩, tracks⟩ := ended
    exact ⟨reading, second, rfl, stays after tracks⟩
  | false =>
    refine .pure ((tracks_pollCode steady logs [] _ (taken _)).mono (fun _ _ => ?_) fun _ _ => id)
    exact And.right

theorem enter_resume (tracks : Tracks host starts config budget log session) :
    (single (resume host)).Ends session (Enter host starts config (budget.add .resumed) log true)
      fun _ _ => False := by
  refine enter_of_reads rfl (.bind (.modifyEngine ?_))
  have resumed (engine : Engine) (config_eq : engine.config = config)
      (none : engine.parseAttempts = 0) (never : engine.lastParseAt = Option.none) :
      Tracks host starts config (budget.add .resumed) log ⟨engine, session.world⟩ :=
    ⟨config_eq, none, never, nofun, tracks.log_eq⟩
  refine bind_query (steady.notify .resumed) (logs.notify .resumed)
    (resumed _ tracks.config_eq rfl rfl) fun _ _ tracks => ?_
  exact enters_force steady logs tracks

theorem enter_perform (call : Call) (tracks : Tracks host starts config budget log session) :
    (call.perform host).Ends session
      (Enter host starts config (budget.after call.resumption) log (call.reads host session))
      fun _ _ => False := by
  cases call with
  | initial => exact enter_initial steady logs tracks
  | event raised => exact enter_handle steady logs raised tracks
  | request direction => exact enter_of_not_reads rfl (tracks_request tracks)
  | force direction =>
    cases direction with
    | toBoard => exact enter_of_reads rfl (enters_force steady logs tracks)
    | toCode => exact enter_of_not_reads rfl (tracks_force steady logs tracks)
  | manual direction =>
    cases direction with
    | toBoard =>
      have forgotten : Tracks host starts config budget log
          { session with engine := { session.engine with syncedCode := none } } := { tracks with }
      exact enter_of_reads rfl (.bind (.modifyEngine (enters_force steady logs forgotten)))
    | toCode => exact enter_of_not_reads rfl (tracks_force steady logs tracks)
  | poll => exact enter_poll steady logs tracks
  | pause =>
    refine .bind (.modifyEngine (.pure ?_))
    split <;> exact { tracks with }
  | resume => exact enter_resume steady logs tracks

theorem entries_cases (call : Call)
    (tracks : Tracks host starts config budget (starts session.world) session) :
    let after := (call.perform host session).2
    (call.reads host session = true ∧ ∃ reading times, call.readings host session = [reading] ∧
      call.entries host starts session = call.resumption ++ reading.entries times ∧
      Tracks host starts config ((budget.after call.resumption).after (reading.entries times))
        (starts session.world ++ times) after ∧
      (budget.after call.resumption).AdmitsAll config (reading.entries times) ∧
      (times = [] → reading.TurnsAway)) ∨
    (call.reads host session = false ∧ call.entries host starts session = [] ∧
      Tracks host starts config budget (starts session.world) after) := by
  intro after
  obtain ⟨outcomes, came, entered⟩ := (enter_perform steady logs call tracks).ok
  unfold Enter at entered
  split at entered
  · rename_i reads
    obtain ⟨reading, rest, rfl, times, tracks', admits, away⟩ := entered
    have readings : call.readings host session = [reading] := by
      rw [Call.readings, if_pos reads, came]
      rfl
    have started : (starts after.world).drop (starts session.world).length = times := by
      rw [tracks'.log_eq, List.drop_left]
    refine .inl ⟨reads, reading, times, readings, ?_, tracks', admits, away⟩
    have ended : [reading].filterMap (·.ending times) = (reading.ending times).toList := by
      rw [List.filterMap_cons]
      cases reading.ending times <;> rfl
    rw [Call.entries, started, readings, ended, List.append_assoc, SyncOutcome.entries]
  · rename_i leaves
    have other : call ≠ .resume := by
      rintro rfl
      exact leaves rfl
    have unresumed : call.resumption = [] := if_neg other
    rw [unresumed] at entered
    have readings : call.readings host session = [] := if_neg leaves
    have started : (starts after.world).drop (starts session.world).length = [] := by
      rw [entered.log_eq, List.drop_length]
    refine .inr ⟨eq_false_of_ne_true leaves, ?_, entered⟩
    rw [Call.entries, unresumed, started, readings]
    rfl

theorem admits_perform (call : Call)
    (tracks : Tracks host starts config budget (starts session.world) session) :
    let after := (call.perform host session).2
    let entries := call.entries host starts session
    budget.AdmitsAll config entries ∧
      Tracks host starts config (budget.after entries) (starts after.world) after := by
  intro after entries
  obtain ⟨-, reading, times, -, same, tracks, admits, -⟩ | ⟨-, none, tracks⟩ :=
    entries_cases steady logs call tracks
  · have opens : budget.AdmitsAll config call.resumption := by
      unfold Call.resumption
      split
      · exact ⟨trivial, trivial⟩
      · trivial
    rw [show entries = _ from same, Budget.admitsAll_append, Budget.after_append]
    exact ⟨⟨opens, admits⟩, { tracks with log_eq := rfl }⟩
  · rw [show entries = _ from none]
    exact ⟨trivial, { tracks with log_eq := rfl }⟩

theorem turnsAway_of_spent {call : Call} (other : call ≠ .resume)
    (tracks : Tracks host starts config budget (starts session.world) session)
    (spent : config.maxParseAttempts ≤ budget.spent) :
    starts (call.perform host session).2.world = starts session.world ∧
      (call.reads host session → ∃ reading, call.readings host session = [reading] ∧
        reading.TurnsAway) := by
  obtain ⟨-, reading, times, readings, -, tracks, admits, away⟩ | ⟨leaves, -, tracks⟩ :=
    entries_cases steady logs call tracks
  · have unresumed : call.resumption = [] := if_neg other
    rw [unresumed] at admits
    have few := Budget.length_of_admitsAll admits
    have none : times = [] := by
      rw [← List.length_eq_zero_iff]
      change times.length ≤ config.maxParseAttempts - budget.spent at few
      omega
    refine ⟨?_, fun _ => ⟨reading, readings, away none⟩⟩
    rw [tracks.log_eq, none, List.append_nil]
  · refine ⟨tracks.log_eq, fun reads => ?_⟩
    rw [leaves] at reads
    cases reads

end Steady

end Engine

open Engine in
theorem Charges.tracks {σ : Type} {host : Host σ} {starts : σ → List Nat} {config : Config}
    (steady : host.Steady) (logs : host.Logs starts) {entries : List Budget.Entry}
    {session : Session σ} (charges : Charges host starts config entries session) :
    Budget.AdmitsAll config ⟨0, none⟩ entries ∧
      Tracks host starts config (Budget.after ⟨0, none⟩ entries) (starts session.world) session := by
  induction charges with
  | start world => exact ⟨trivial, ⟨rfl, rfl, rfl, nofun, rfl⟩⟩
  | call call _ ih =>
    obtain ⟨admits, tracks⟩ := ih
    obtain ⟨admits', tracks'⟩ := admits_perform steady logs call tracks
    rw [Budget.admitsAll_append, Budget.after_append]
    exact ⟨⟨admits, admits'⟩, tracks'⟩
  | edit world _ later same ih => exact ⟨ih.1, { ih.2.of_world later same with log_eq := rfl }⟩

/-- Two readings with no resumption between them start at least the shortest interval apart. No more
readings than the settings allow are started in a row, without a text that has been shown as it reads,
one that has been turned away, or a resumption among them. After so many the next text that is looked at
is turned away, unless the engine is resumed; and none is turned away before. -/
theorem Engine.budget_of_charges {σ : Type} {host : Host σ} {starts : σ → List Nat} {config : Config}
    (steady : host.Steady) (logs : host.Logs starts) {entries : List Budget.Entry}
    {session : Session σ} (charges : Charges host starts config entries session) :
    (∀ before between after earlier started,
      entries = before ++ .read earlier :: (between ++ .read started :: after) →
      .resumed ∉ between → earlier + config.minParseInterval ≤ started) ∧
    (∀ times : List Nat, times.map .read <:+: entries → times.length ≤ config.maxParseAttempts) ∧
    (∀ times : List Nat, times.map .read <:+ entries → times.length = config.maxParseAttempts →
      ∀ call : Call, call ≠ .resume →
        starts (call.perform host session).2.world = starts session.world ∧
          (call.reads host session → ∃ reading, call.readings host session = [reading] ∧
            reading.TurnsAway)) ∧
    ∀ before after, entries = before ++ .turnedAway :: after →
      ∃ times : List Nat, times.map .read <:+ before ∧ times.length = config.maxParseAttempts := by
  obtain ⟨admits, tracks⟩ := charges.tracks steady logs
  refine ⟨fun before between after earlier started same unresumed => ?_,
    fun times => Budget.length_of_infix admits, ?_, fun before after same => ?_⟩
  · rw [same, Budget.admitsAll_append] at admits
    exact Budget.spaced_of_admitsAll rfl unresumed admits.2.2
  · rintro times ⟨before, rfl⟩ many call other
    refine turnsAway_of_spent steady logs other tracks ?_
    rw [Budget.after_append, Budget.spent_after_reads, many]
    exact Nat.le_add_left _ _
  · rw [same, Budget.admitsAll_append] at admits
    obtain ⟨times, row, spent⟩ := Budget.exists_reads before
    refine ⟨times, row, Nat.le_antisymm (Budget.length_of_infix admits.1 row.isInfix) ?_⟩
    rw [spent]
    exact admits.2.1

namespace Notepad

def typedLater (text : String) (session : Session (Notepad × List Nat)) :
    Session (Notepad × List Nat) :=
  let time := session.world.1.time + 1000 * Config.nanosPerMilli
  { session with world := ({ session.world.1 with text := text, time := time }, session.world.2) }

theorem log_typedLater (text : String) (session : Session (Notepad × List Nat)) :
    (typedLater text session).world.2 = session.world.2 := by
  obtain ⟨engine, pad, log⟩ := session
  rfl

theorem charges_typedLater {config : Config} {entries : List Budget.Entry}
    {session : Session (Notepad × List Nat)} (text : String)
    (charges : Charges prompt.logged Prod.snd config entries session) :
    Charges prompt.logged Prod.snd config entries (typedLater text session) :=
  .edit _ charges (Nat.le_add_right _ _) (log_typedLater text session)

end Notepad

open Notepad in
/-- Two texts that do not read as they should, and a third one that is turned away. -/
theorem Engine.budget_of_charges_invalid :
    let host := prompt.logged
    let config := { Config.default with maxParseAttempts := 2 }
    let start : Session (Notepad × List Nat) :=
      ⟨.new config, (opened config "A -> : one").world, []⟩
    let first := ((Call.force .toBoard).perform host start).2
    let second := ((Call.force .toBoard).perform host (typedLater "A -> : two" first)).2
    let third := typedLater "A -> : three" second
    second.world.2 = [0, 1000 * Config.nanosPerMilli] ∧
      0 + config.minParseInterval ≤ 1000 * Config.nanosPerMilli ∧
      ((Call.force .toBoard).perform host third).2.world.2 = [0, 1000 * Config.nanosPerMilli] ∧
      ∃ reading, (Call.force .toBoard).readings host third = [reading] ∧ reading.TurnsAway := by
  intro host config start first second third
  have steady : host.Steady := (steady_host fun _ _ => Nat.le_refl _).logged
  have begun : (Call.force .toBoard).entries host Prod.snd start = [.read 0] := by decide +kernel
  have again : (Call.force .toBoard).entries host Prod.snd (typedLater "A -> : two" first) =
      [.read (1000 * Config.nanosPerMilli)] := by decide +kernel
  have charges : Charges host Prod.snd config
      ([0, 1000 * Config.nanosPerMilli].map .read) third := by
    have charged : Charges host Prod.snd config
        ([] ++ (Call.force .toBoard).entries host Prod.snd start) first :=
      .call (.force .toBoard) (.start start.world)
    rw [begun, List.nil_append] at charged
    have charged' : Charges host Prod.snd config
        ([.read 0] ++ (Call.force .toBoard).entries host Prod.snd (typedLater "A -> : two" first))
        second :=
      .call (.force .toBoard) (charges_typedLater "A -> : two" charged)
    rw [again] at charged'
    exact charges_typedLater "A -> : three" charged'
  obtain ⟨spaced, -, away, -⟩ := budget_of_charges steady prompt.logs_logged charges
  have apart := spaced [] [] [] 0 (1000 * Config.nanosPerMilli) rfl nofun
  have logged : second.world.2 = [0, 1000 * Config.nanosPerMilli] := by decide +kernel
  obtain ⟨same, reads⟩ := away _ List.suffix_rfl rfl (.force .toBoard) nofun
  exact ⟨logged, apart, same.trans ((log_typedLater _ _).trans logged), reads rfl⟩

end Lifeline
