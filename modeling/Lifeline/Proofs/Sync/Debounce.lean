import Lifeline.Proofs.Sync.Attended
import Lifeline.Proofs.Sync.Retained

/-! When requests are served.

A request waits until nobody has repeated it for a while, and one synchronization serves all that have
been made until then. What is synchronized at once serves them early; a pause takes them back. Polling
before the next deadline has nothing to do and does nothing. -/

set_option autoImplicit false

namespace Lifeline

/-- For each direction the time of the latest request that has been accepted, unless it has been served
or taken back since. -/
abbrev Requests := Direction → Option Nat

def Event.requested? : Event → Option Direction
  | .textInput => some .toBoard
  | .actorSelectionChanged | .actionChanged | .actionAdded | .actionRemoved => some .toCode
  | .textBlur | .actionReordered => none

def Event.forced? : Event → Option Direction
  | .textBlur => some .toBoard
  | .actionReordered => some .toCode
  | _ => none

theorem Event.forced_of_not_requested (event : Event) (silent : event.requested? = none) :
    ∃ direction, event.forced? = some direction := by
  cases event with
  | textBlur => exact ⟨.toBoard, rfl⟩
  | actionReordered => exact ⟨.toCode, rfl⟩
  | _ => cases silent

namespace Call

def requested? : Call → Option Direction
  | .request direction => some direction
  | .event raised => raised.requested?
  | _ => none

/-- The direction in which a call has a synchronization forced. A first synchronization looks at the
text before, and a resumption is told before; if the host breaks down then, nothing is forced. -/
def forced? {σ : Type} (host : Host σ) (session : Session σ) : Call → Option Direction
  | .force direction | .manual direction => some direction
  | .event raised => raised.forced?
  | .initial => (host.code session.world).1.toOption.map fun text =>
      if (Text.trim text.toList).isEmpty then .toCode else .toBoard
  | .resume => (host.notify .resumed session.world).1.toOption.map fun _ => .toBoard
  | .request _ | .poll | .pause => none

end Call

namespace Engine

variable {σ : Type}

def slot (engine : Engine) : Direction → Timer
  | .toBoard => engine.codeDebounce
  | .toCode => engine.boardDebounce

def withSlot (engine : Engine) (timer : Timer) : Direction → Engine
  | .toBoard => { engine with codeDebounce := timer }
  | .toCode => { engine with boardDebounce := timer }

def serve (host : Host σ) (direction : Direction) (due : Bool) : Task σ (List SyncOutcome) := do
  if due then
    Task.modifyEngine fun engine =>
      engine.withSlot { engine.slot direction with deadline := none } direction
    single (sync host direction)
  else return []

/-- Synchronizes once in each direction in which something is due, but not in a pause, and renews the
report if its time has come. -/
def serveBoth (host : Host σ) (now : Nat) (due : Direction → Bool) : Task σ (List SyncOutcome) := do
  let first ← serve host .toBoard (due .toBoard)
  let paused := (← Task.engine).phase = .paused
  let second ← serve host .toCode (due .toCode && !paused)
  renewReport now
  return first ++ second

end Engine

namespace Requests

variable {σ : Type}

def due (requests : Requests) (config : Config) (now : Nat) (direction : Direction) : Bool :=
  (requests direction).any (· + config.debounce ≤ now)

def set (requests : Requests) (direction : Direction) (asked : Option Nat) : Requests := fun other =>
  if other = direction then asked else requests other

def served (requests : Requests) (direction : Direction) (due : Bool) : Requests :=
  if due then requests.set direction none else requests

/-- What polling leaves of the requests. A fault in the first synchronization ends it before the second
one. -/
def polled (requests : Requests) (host : Host σ) (session : Session σ) : Requests :=
  let due := requests.due session.engine.config (host.now session.world)
  let reached := (Engine.serve host .toBoard (due .toBoard) session).1.isOk
  (requests.served .toBoard (due .toBoard)).served .toCode (due .toCode && reached)

def left (requests : Requests) (host : Host σ) (session : Session σ) (call : Call) : Requests :=
  match call.requested?, call.forced? host session with
  | some direction, _ => requests.set direction (some (host.now session.world))
  | none, some direction => requests.set direction none
  | none, none => if call = .poll then requests.polled host session else requests

section Left

variable {requests : Requests} {host : Host σ} {session : Session σ} {call : Call}
  {direction : Direction}

theorem left_of_requested (requested : call.requested? = some direction) :
    requests.left host session call = requests.set direction (some (host.now session.world)) := by
  rw [left, requested]

theorem left_of_forced (silent : call.requested? = none)
    (forced : call.forced? host session = some direction) :
    requests.left host session call = requests.set direction none := by
  rw [left, silent, forced]

theorem left_of_neither (silent : call.requested? = none) (unforced : call.forced? host session = none)
    (other : call ≠ .poll) : requests.left host session call = requests := by
  rw [left, silent, unforced]
  exact if_neg other

end Left

/-- The requests after a call. A pause takes all of them back, and none is accepted in a pause. -/
def after (requests : Requests) (host : Host σ) (session : Session σ) (call : Call) : Requests :=
  if (call.perform host session).2.engine.phase = .paused then fun _ => none
  else requests.left host session call

end Requests

/-- Whether a session can come to be from a new engine by any calls, with whatever happens to its
surroundings in between, and with the given requests. -/
inductive Awaiting {σ : Type} (host : Host σ) (config : Config) : Requests → Session σ → Prop where
  | start (world : σ) : Awaiting host config (fun _ => none) ⟨.new config, world⟩
  | call {requests : Requests} {session : Session σ} (call : Call) :
      Awaiting host config requests session →
      Awaiting host config (requests.after host session call) (call.perform host session).2
  | edit {requests : Requests} {session : Session σ} (world : σ) :
      Awaiting host config requests session →
      Awaiting host config requests { session with world := world }

namespace Timer

variable {timer : Timer} {now : Nat}

theorem takeDue_of_due (due : timer.deadline.any (· ≤ now) = true) :
    timer.takeDue now = (some ⟨timer.number⟩, { timer with deadline := none }) := by
  unfold takeDue
  split
  · rename_i absent
    rw [absent] at due
    cases due
  · rename_i deadline present
    rw [present] at due
    rw [if_neg (Nat.not_lt.2 (of_decide_eq_true due))]

theorem takeDue_of_early (early : timer.deadline.any (· ≤ now) = false) :
    timer.takeDue now = (none, timer) := by
  unfold takeDue
  split
  · rfl
  · rename_i deadline present
    rw [present] at early
    rw [if_pos (Nat.lt_of_not_le (of_decide_eq_false early))]

theorem not_due (early : ∀ deadline, timer.deadline = some deadline → now < deadline) :
    timer.deadline.any (· ≤ now) = false := by
  cases present : timer.deadline with
  | none => rfl
  | some deadline => exact decide_eq_false (Nat.not_le.2 (early deadline present))

end Timer

namespace Engine

variable {σ : Type} {host : Host σ} {config : Config} {requests : Requests} {session : Session σ}

theorem withSlot_slot (engine : Engine) (direction : Direction) :
    engine.withSlot (engine.slot direction) direction = engine := by
  cases direction <;> rfl

theorem slot_withSlot (engine : Engine) (timer : Timer) (direction : Direction) :
    (engine.withSlot timer direction).slot direction = timer := by
  cases direction <;> rfl

theorem slot_withSlot_of_ne (engine : Engine) (timer : Timer) {direction other : Direction}
    (apart : other ≠ direction) : (engine.withSlot timer direction).slot other = engine.slot other := by
  cases direction <;> cases other <;> first | rfl | exact absurd rfl apart

theorem takeDue_apply (get : Engine → Timer) (put : Engine → Timer → Engine) (now : Nat) :
    takeDue get put now session =
      (.ok ((get session.engine).takeDue now).1.isSome,
        { session with engine := put session.engine ((get session.engine).takeDue now).2 }) := rfl

theorem runDue_eq_serve (now : Nat) (direction : Direction) :
    runDue (slot · direction) (withSlot · · direction) now (sync host direction) session =
      serve host direction ((session.engine.slot direction).deadline.any (· ≤ now)) session := by
  rw [runDue, Task.bind_apply, takeDue_apply]
  cases due : (session.engine.slot direction).deadline.any (· ≤ now) with
  | true =>
    rw [Timer.takeDue_of_due due]
    rfl
  | false =>
    rw [Timer.takeDue_of_early due, withSlot_slot]
    rfl

/-! ## What a call leaves of the requests -/

def Schedules (config : Config) (requests : Requests) (engine : Engine) : Prop :=
  ∀ direction, (engine.slot direction).deadline = (requests direction).map (· + config.debounce)

abbrev SchedulesIn (config : Config) (requests : Requests) (session : Session σ) : Prop :=
  session.engine.phase ≠ .paused → session.engine.Schedules config requests

theorem schedules_of_awaits {before after : Engine} (schedules : before.Schedules config requests)
    (awaits : after.Awaits before.codeDebounce before.boardDebounce) (awake : after.phase ≠ .paused) :
    after.Schedules config requests := by
  obtain ⟨code, board⟩ := awaits.resolve_right fun halted => awake halted.1
  intro direction
  have same : after.slot direction = before.slot direction := by
    cases direction with
    | toBoard => exact code
    | toCode => exact board
  rw [same]
  exact schedules direction

theorem rests_sync (world : σ) (direction : Direction) :
    (sync host direction).Keeps (Session.Rests world) := by
  cases direction with
  | toBoard => exact rests_toBoard
  | toCode => exact rests_toCode

theorem awaits_sync (code board : Timer) (direction : Direction) :
    (sync host direction).Keeps (AwaitsIn code board) := by
  cases direction with
  | toBoard => exact awaits_toBoard
  | toCode => exact awaits_toCode

theorem schedules_sync (direction : Direction) :
    (sync host direction).Keeps (SchedulesIn config requests) := by
  intro session schedules
  by_cases paused : session.engine.phase = .paused
  · exact (rests_sync session.world direction session ⟨paused, rfl⟩).mono
      (fun _ _ rests awake => absurd rests.1 awake) fun _ _ rests awake => absurd rests.1 awake
  · exact (awaits_sync _ _ direction session (awaits_self _)).mono
      (fun _ _ => schedules_of_awaits (schedules paused))
      fun _ _ => schedules_of_awaits (schedules paused)

theorem schedules_withSlot {engine : Engine} {timer : Timer} {direction : Direction}
    {asked : Option Nat} (schedules : engine.Schedules config requests)
    (changed : timer.deadline = asked.map (· + config.debounce)) :
    (engine.withSlot timer direction).Schedules config (requests.set direction asked) := by
  intro other
  by_cases same : other = direction
  · rw [same, slot_withSlot, Requests.set, if_pos rfl, changed]
  · rw [slot_withSlot_of_ne engine timer same, Requests.set, if_neg same, schedules other]

theorem schedules_force (direction : Direction)
    (schedules : session.engine.Schedules config requests) :
    (force host direction).Ends session
      (fun _ => SchedulesIn config (requests.set direction none))
      fun _ => SchedulesIn config (requests.set direction none) := by
  have same : force host direction = (do
      Task.modifyEngine fun engine =>
        engine.withSlot (engine.slot direction).cancel direction
      sync host direction) := by
    cases direction <;> rfl
  rw [same]
  refine .bind (.modifyEngine (schedules_sync direction _ fun _ => ?_))
  exact schedules_withSlot schedules (Timer.deadline_cancel _)

theorem schedules_request (direction : Direction)
    (config_eq : session.engine.config = config)
    (schedules : session.engine.Schedules config requests) :
    (request host direction).Ends session
      (fun _ => SchedulesIn config (requests.set direction (some (host.now session.world))))
      fun _ => SchedulesIn config (requests.set direction (some (host.now session.world))) := by
  refine .bind (.engine ?_)
  split
  · rename_i paused
    exact fun awake => absurd paused awake
  · refine .bind (.now ?_)
    subst config_eq
    cases direction <;> exact .bind (.modifyEngine fun _ => schedules_withSlot schedules rfl)

theorem schedules_manual (direction : Direction)
    (schedules : session.engine.Schedules config requests) :
    (manual host direction).Ends session
      (fun _ => SchedulesIn config (requests.set direction none))
      fun _ => SchedulesIn config (requests.set direction none) := by
  cases direction with
  | toBoard => exact .bind (.modifyEngine (schedules_force .toBoard schedules))
  | toCode => exact schedules_force .toCode schedules

theorem handle_of_requested {event : Event} {direction : Direction}
    (requested : event.requested? = some direction) : handle host event = request host direction := by
  cases event <;> cases requested <;> rfl

theorem handle_of_forced {event : Event} {direction : Direction}
    (forced : event.forced? = some direction) : handle host event = force host direction := by
  cases event <;> cases forced <;> rfl

theorem schedules_handle (event : Event) (config_eq : session.engine.config = config)
    (schedules : session.engine.Schedules config requests) :
    (handle host event).Ends session
      (fun _ => SchedulesIn config (requests.left host session (.event event)))
      fun _ => SchedulesIn config (requests.left host session (.event event)) := by
  cases requested : event.requested? with
  | some direction =>
    have left : requests.left host session (.event event) =
        requests.set direction (some (host.now session.world)) :=
      Requests.left_of_requested requested
    rw [left, handle_of_requested requested]
    exact schedules_request direction config_eq schedules
  | none =>
    obtain ⟨direction, forced⟩ := event.forced_of_not_requested requested
    have left : requests.left host session (.event event) = requests.set direction none :=
      Requests.left_of_forced requested forced
    rw [left, handle_of_forced forced]
    exact schedules_force direction schedules

theorem schedules_initial (schedules : session.engine.Schedules config requests) :
    (initial host).Ends session
      (fun _ => SchedulesIn config (requests.left host session .initial))
      fun _ => SchedulesIn config (requests.left host session .initial) := by
  have forced : Call.initial.forced? host session =
      (host.code session.world).1.toOption.map fun text =>
        if (Text.trim text.toList).isEmpty then .toCode else .toBoard := rfl
  refine .bind (.now (.bind (.modifyEngine (.bind (.query ?_ ?_)))))
  · intro text world called
    rw [called, Except.toOption, Option.map_some] at forced
    rw [Requests.left_of_forced rfl forced]
    split <;> exact schedules_force _ schedules
  · intro breakdown world called
    rw [called] at forced
    rw [Requests.left_of_neither rfl forced (by decide)]
    exact fun _ => schedules

theorem schedules_resume (schedules : session.engine.Schedules config requests) :
    (resume host).Ends session
      (fun _ => SchedulesIn config (requests.left host session .resume))
      fun _ => SchedulesIn config (requests.left host session .resume) := by
  have forced : Call.resume.forced? host session =
      (host.notify .resumed session.world).1.toOption.map fun _ => .toBoard := rfl
  refine .bind (.modifyEngine (.bind (.query ?_ ?_)))
  · intro _ world called
    rw [called] at forced
    rw [Requests.left_of_forced rfl forced]
    exact schedules_force .toBoard schedules
  · intro breakdown world called
    rw [called] at forced
    rw [Requests.left_of_neither rfl forced (by decide)]
    exact fun _ => schedules

/-! ## What polling does -/

theorem any_deadline {engine : Engine} (schedules : engine.Schedules config requests)
    (now : Nat) (direction : Direction) :
    (engine.slot direction).deadline.any (· ≤ now) = requests.due config now direction := by
  rw [schedules direction, Option.any_map]
  rfl

theorem Sound.deadline_of_paused {active : Phase} {engine : Engine}
    (sound : engine.Sound config active) (paused : engine.phase = .paused) (direction : Direction) :
    (engine.slot direction).deadline = none := by
  have idle : (engine.slot direction).isPending = false := by
    cases direction with
    | toBoard => exact (sound.slots paused).1
    | toCode => exact (sound.slots paused).2
  simpa [Timer.isPending] using idle

theorem keeps_sync (direction : Direction) : (sync host direction).Keeps (SoundIn config .idle) := by
  cases direction with
  | toBoard => exact keeps_toBoard
  | toCode => exact keeps_toCode

theorem keeps_serve (host : Host σ) (direction : Direction) (due : Bool) :
    (serve host direction due).Keeps (SoundIn config .idle) := by
  cases due with
  | false => exact .pure _
  | true =>
    refine .bind (.modifyEngine fun session sound => ?_) fun _ => keeps_single (keeps_sync direction)
    cases direction with
    | toBoard => exact { sound with slots := fun paused => ⟨rfl, (sound.slots paused).2⟩ }
    | toCode => exact { sound with slots := fun paused => ⟨(sound.slots paused).1, rfl⟩ }

theorem schedules_serve {direction : Direction} {due : Bool}
    (schedules : session.engine.phase ≠ .paused → session.engine.Schedules config requests) :
    (serve host direction due).Ends session
      (fun _ => SchedulesIn config (requests.served direction due))
      fun _ => SchedulesIn config (requests.served direction due) := by
  cases due with
  | false => exact schedules
  | true =>
    refine .bind (.modifyEngine (keeps_single (schedules_sync direction) _ fun awake => ?_))
    refine schedules_withSlot (schedules ?_) rfl
    cases direction <;> exact awake

theorem poll_eq_serveBoth (sound : session.engine.Sound config .idle)
    (schedules : session.engine.Schedules config requests) :
    poll host session =
      serveBoth host (host.now session.world) (requests.due config (host.now session.world))
        session := by
  have clock : Task.now host session = (.ok (host.now session.world), session) := rfl
  rw [poll_eq, Task.bind_apply, clock]
  dsimp only
  generalize host.now session.world = now
  have first : runDue codeDebounce ({ · with codeDebounce := · }) now (toBoard host) session =
      serve host .toBoard (requests.due config now .toBoard) session := by
    rw [← any_deadline schedules]
    exact runDue_eq_serve now .toBoard
  rw [serveBoth, Task.bind_apply, Task.bind_apply, first]
  have between := (keeps_serve host .toBoard (requests.due config now .toBoard) session sound).and
    (schedules_serve fun _ => schedules)
  unfold Task.Ends at between
  generalize serve host .toBoard (requests.due config now .toBoard) session = ended at between ⊢
  obtain ⟨_ | outcomes, after⟩ := ended
  · rfl
  have second : runDue boardDebounce ({ · with boardDebounce := · }) now (toCode host) after =
      serve host .toCode (requests.due config now .toCode && !(after.engine.phase = .paused))
        after := by
    refine (runDue_eq_serve now .toCode).trans (congrArg (serve host .toCode · after) ?_)
    by_cases paused : after.engine.phase = .paused
    · rw [between.1.deadline_of_paused paused, decide_eq_true paused]
      exact (Bool.and_false _).symm
    · have unserved : (requests.served .toBoard (requests.due config now .toBoard)).due config now
          .toCode = requests.due config now .toCode := by
        unfold Requests.served
        split <;> rfl
      rw [any_deadline (between.2 paused), unserved, decide_eq_false paused]
      exact (Bool.and_true _).symm
  dsimp only
  rw [Task.bind_apply, second]
  exact (Task.bind_apply (serve host .toCode _) _ after).symm

theorem schedules_poll (sound : session.engine.Sound config .idle)
    (schedules : session.engine.Schedules config requests) :
    (poll host).Ends session
      (fun _ => SchedulesIn config (requests.polled host session))
      fun _ => SchedulesIn config (requests.polled host session) := by
  unfold Task.Ends
  rw [poll_eq_serveBoth sound schedules, Requests.polled, sound.config_eq]
  change (serveBoth host _ _).Ends session _ _
  refine .bind (((schedules_serve fun _ => schedules).and (Task.Ends.came _ _)).mono ?_ ?_)
  · rintro first between ⟨schedules, came⟩
    have reached (due : Bool) : (due && (Except.ok first : Except Fault _).isOk) = due :=
      Bool.and_true due
    rw [came, reached]
    refine .bind (.engine (.bind ?_))
    by_cases paused : between.engine.phase = .paused
    · rw [decide_eq_true paused, Bool.not_true, Bool.and_false]
      exact .pure (.bind (renewReport_ends fun _ awake => absurd paused awake))
    · rw [decide_eq_false paused, Bool.not_false, Bool.and_true]
      exact (schedules_serve schedules).mono
        (fun _ _ schedules => .bind (renewReport_ends fun _ => schedules)) fun _ _ => id
  · rintro fault after ⟨schedules, came⟩
    have ended (due : Bool) :
        (due && (Except.error fault : Except Fault (List SyncOutcome)).isOk) = false :=
      Bool.and_false due
    rw [came, ended]
    exact schedules

theorem schedules_perform (call : Call) (sound : session.engine.Sound config .idle)
    (schedules : session.engine.Schedules config requests) :
    (call.perform host).Ends session
      (fun _ => SchedulesIn config (requests.left host session call))
      fun _ => SchedulesIn config (requests.left host session call) := by
  cases call with
  | initial => exact single_ends (schedules_initial schedules)
  | event raised => exact single_ends (schedules_handle raised sound.config_eq schedules)
  | request direction =>
    exact single_ends (schedules_request direction sound.config_eq schedules)
  | force direction => exact single_ends (schedules_force direction schedules)
  | manual direction => exact single_ends (schedules_manual direction schedules)
  | poll => exact schedules_poll sound schedules
  | pause =>
    refine .bind (.modifyEngine fun awake => absurd ?_ awake)
    split <;> first | assumption | rfl
  | resume => exact single_ends (schedules_resume schedules)

theorem schedules_after (call : Call) (sound : session.engine.Sound config .idle)
    (schedules : session.engine.Schedules config requests) :
    (call.perform host session).2.engine.Schedules config (requests.after host session call) := by
  unfold Requests.after
  split
  · rename_i paused
    intro direction
    have sound : SoundIn config .idle (call.perform host session).2 :=
      (call.keeps_perform session sound).after
    exact sound.deadline_of_paused paused direction
  · rename_i awake
    exact (schedules_perform call sound schedules).after awake

/-! ## When polling has something to do -/

theorem mem_deadlines_iff {engine : Engine} {deadline : Nat} :
    deadline ∈ [engine.codeDebounce.deadline, engine.boardDebounce.deadline,
        engine.metricsTimer.deadline].filterMap id ↔
      (∃ direction, (engine.slot direction).deadline = some deadline) ∨
        engine.metricsTimer.deadline = some deadline := by
  have either : (∃ direction, (engine.slot direction).deadline = some deadline) ↔
      engine.codeDebounce.deadline = some deadline ∨
        engine.boardDebounce.deadline = some deadline := by
    constructor
    · rintro ⟨_ | _, present⟩
      · exact .inl present
      · exact .inr present
    · rintro (present | present)
      · exact ⟨.toBoard, present⟩
      · exact ⟨.toCode, present⟩
  rw [either, List.mem_filterMap]
  simp [or_assoc, eq_comm]

theorem nextDeadline_eq_some_iff {engine : Engine} {next : Nat} :
    engine.nextDeadline = some next ↔
      ((∃ direction, (engine.slot direction).deadline = some next) ∨
          engine.metricsTimer.deadline = some next) ∧
        ∀ deadline, (∃ direction, (engine.slot direction).deadline = some deadline) ∨
          engine.metricsTimer.deadline = some deadline → next ≤ deadline := by
  simp only [← mem_deadlines_iff]
  exact List.min?_eq_some_iff

theorem lt_of_lt_nextDeadline {engine : Engine} {now deadline : Nat}
    (early : ∀ next, engine.nextDeadline = some next → now < next)
    (present : (∃ direction, (engine.slot direction).deadline = some deadline) ∨
      engine.metricsTimer.deadline = some deadline) : now < deadline := by
  cases earliest : engine.nextDeadline with
  | none =>
    have empty := List.min?_eq_none_iff.1 earliest
    have member := mem_deadlines_iff.2 present
    rw [empty] at member
    cases member
  | some next =>
    exact Nat.lt_of_lt_of_le (early next earliest) ((nextDeadline_eq_some_iff.1 earliest).2 _ present)

theorem renewReport_of_early {now : Nat}
    (early : session.engine.metricsTimer.deadline.any (· ≤ now) = false) :
    renewReport now session = (.ok (), session) := by
  rw [renewReport, Task.bind_apply, takeDue_apply, Timer.takeDue_of_early early]
  rfl

theorem renewReport_of_due {now : Nat}
    (due : session.engine.metricsTimer.deadline.any (· ≤ now) = true) :
    renewReport now session = (.ok (), { session with engine := { session.engine with
      metricsTimer := (session.engine.metricsTimer.schedule
        (now + session.engine.config.metricsInterval)).2 } }) := by
  rw [renewReport, Task.bind_apply, takeDue_apply, Timer.takeDue_of_due due]
  rfl

theorem serveBoth_of_early {now : Nat} {due : Direction → Bool} {after : Session σ}
    (early : ∀ direction, due direction = false) (renewed : renewReport now session = (.ok (), after)) :
    serveBoth host now due session = (.ok [], after) := by
  have none (session : Session σ) (direction : Direction) :
      serve host direction false session = (.ok [], session) := rfl
  have looked : Task.engine session = (.ok session.engine, session) := rfl
  rw [serveBoth, early, early, Task.bind_apply, none]
  dsimp only
  rw [Task.bind_apply, looked]
  dsimp only
  rw [Bool.false_and, Task.bind_apply, none]
  dsimp only
  rw [Task.bind_apply, renewed]
  rfl

end Engine

open Engine

theorem Awaiting.schedules {σ : Type} {host : Host σ} {config : Config} {requests : Requests}
    {session : Session σ} (awaiting : Awaiting host config requests session) :
    session.engine.Sound config .idle ∧ session.engine.Schedules config requests := by
  induction awaiting with
  | start world => exact ⟨sound_new config, fun direction => by cases direction <;> rfl⟩
  | call call _ ih => exact ⟨(call.keeps_perform _ ih.1).after, schedules_after call ih.1 ih.2⟩
  | edit world _ ih => exact ih

namespace Host.Answers

variable {σ : Type} {host : Host σ} {session : Session σ}

theorem ends_sync (answers : host.Answers) (direction : Direction) :
    (sync host direction).Ends session (fun _ _ => True) fun _ _ => False := by
  cases direction with
  | toCode => exact answers.ends_toCode
  | toBoard =>
    refine .bind (.engine ?_)
    split
    · trivial
    · obtain ⟨text, asked, asks⟩ := answers.code session.world
      refine .bind (.answered asks (.bind (.engine ?_)))
      split
      · trivial
      · refine .bind (.now ?_)
        split
        · exact .bind (.modifyEngine trivial)
        · obtain ⟨cursor, placed, places⟩ := answers.cursor asked
          exact .bind (.answered places (answers.ends_running fun session => .trivial _ session))

theorem ends_serve (answers : host.Answers) (direction : Direction) (due : Bool) :
    (serve host direction due).Ends session (fun outcomes _ => outcomes.length = due.toNat)
      fun _ _ => False := by
  cases due with
  | false => exact .pure rfl
  | true =>
    exact .bind (.modifyEngine (single_ends ((answers.ends_sync direction).mono (fun _ _ _ => rfl)
      fun _ _ => id)))

theorem ends_serveBoth (answers : host.Answers) (now : Nat) (due : Direction → Bool) :
    let between := (serve host .toBoard (due .toBoard) session).2
    (serveBoth host now due).Ends session
      (fun outcomes _ => ∃ first second, outcomes = first ++ second ∧
        first.length = (due .toBoard).toNat ∧
        second.length = (due .toCode && !(between.engine.phase = .paused)).toNat)
      fun _ _ => False := by
  refine .bind (((answers.ends_serve .toBoard _).and (.came _ _)).mono ?_ fun _ _ => And.left)
  rintro first between ⟨once, came⟩
  rw [came]
  refine .bind (.engine (.bind ((answers.ends_serve .toCode _).mono (fun second _ once' => ?_)
    fun _ _ => id)))
  exact .bind (renewReport_ends fun _ => ⟨first, second, rfl, once, once'⟩)

end Host.Answers

/-- Polling synchronizes once in each direction in which a request has waited for long enough, however
many have been made before it, and in no other; not in the second direction if the engine has paused
itself in the first one. Before the next deadline it does nothing; from then on it synchronizes or
renews the report. A host that answers lets it come to its end. -/
theorem Engine.poll_of_awaiting {σ : Type} {host : Host σ} {config : Config} {requests : Requests}
    {session : Session σ} (awaiting : Awaiting host config requests session) :
    let now := host.now session.world
    let due := requests.due config now
    poll host session = serveBoth host now due session ∧
      (∀ direction, due direction → session.engine.phase ≠ .paused) ∧
      (host.Answers →
        let between := (serve host .toBoard (due .toBoard) session).2
        ∃ first second, (poll host session).1 = .ok (first ++ second) ∧
          first.length = (due .toBoard).toNat ∧
          second.length = (due .toCode && !(between.engine.phase = .paused)).toNat) ∧
      ((∀ deadline, session.engine.nextDeadline = some deadline → now < deadline) →
        poll host session = (.ok [], session)) ∧
      ∀ deadline, session.engine.nextDeadline = some deadline → deadline ≤ now →
        due .toBoard ∨ due .toCode ∨
          poll host session = (.ok [], { session with engine := { session.engine with
            metricsTimer := (session.engine.metricsTimer.schedule
              (now + config.metricsInterval)).2 } }) := by
  intro now due
  obtain ⟨sound, schedules⟩ := awaiting.schedules
  have scheduled (direction : Direction) :
      due direction = (session.engine.slot direction).deadline.any (· ≤ now) :=
    (any_deadline schedules now direction).symm
  have polls : poll host session = serveBoth host now due session := poll_eq_serveBoth sound schedules
  have idle (early : ∀ direction, due direction = false) {after : Session σ}
      (renewed : renewReport now session = (.ok (), after)) :
      poll host session = (.ok [], after) :=
    polls.trans (serveBoth_of_early early renewed)
  refine ⟨polls, fun direction asked paused => ?_, fun answers => ?_, fun early => ?_,
    fun deadline next late => ?_⟩
  · rw [scheduled, sound.deadline_of_paused paused] at asked
    cases asked
  · have ends := @Host.Answers.ends_serveBoth σ host session answers now due
    obtain ⟨outcomes, came, first, second, both, lengths⟩ := ends.ok
    exact ⟨first, second, by rw [polls, came, both], lengths⟩
  · refine idle (fun direction => ?_) (renewReport_of_early (Timer.not_due fun deadline present => ?_))
    · rw [scheduled]
      exact Timer.not_due fun deadline present => lt_of_lt_nextDeadline early (.inl ⟨_, present⟩)
    · exact lt_of_lt_nextDeadline early (.inr present)
  · obtain ⟨direction, present⟩ | present := (nextDeadline_eq_some_iff.1 next).1
    · have asked : due direction = true := by
        rw [scheduled, present]
        exact decide_eq_true late
      cases direction with
      | toBoard => exact .inl asked
      | toCode => exact .inr (.inl asked)
    · refine or_iff_not_imp_left.2 fun quiet => or_iff_not_imp_left.2 fun still => ?_
      rw [← sound.config_eq]
      refine idle (fun direction => ?_) (renewReport_of_due ?_)
      · cases direction with
        | toBoard => exact eq_false_of_ne_true quiet
        | toCode => exact eq_false_of_ne_true still
      · rw [present]
        exact decide_eq_true late

theorem Notepad.engine_after (milliseconds : Nat) (session : Session Notepad) :
    (after milliseconds session).engine = session.engine := by
  cases session
  rfl

open Notepad in
theorem Engine.poll_of_awaiting_retyped :
    let typed := opened .default "A -> B : hi"
    let again := after 200 ((Call.event .textInput).perform prompt typed).2
    let announced := ((Call.event .textInput).perform prompt again).2
    let requests := Requests.after
      (Requests.after (fun _ => none) prompt typed (.event .textInput)) prompt again
      (.event .textInput)
    Awaiting prompt .default requests announced ∧
      requests .toBoard = some (200 * Config.nanosPerMilli) ∧ requests .toCode = none ∧
      announced.engine.nextDeadline = some (500 * Config.nanosPerMilli) ∧
      poll prompt (after 299 announced) = (.ok [], after 299 announced) ∧
      (poll prompt (after 300 announced)).1.toOption = some [.applied .toBoard 0] ∧
      poll prompt (after 300 announced) =
        serveBoth prompt (500 * Config.nanosPerMilli) (· == .toBoard) (after 300 announced) := by
  intro typed again announced requests
  have awaiting : Awaiting prompt .default requests announced :=
    .call (.event .textInput) (.edit _ (.call (.event .textInput) (.start _)))
  have next : announced.engine.nextDeadline = some (500 * Config.nanosPerMilli) := by decide +kernel
  have waiting (milliseconds : Nat) :
      Awaiting prompt .default requests (after milliseconds announced) :=
    awaiting.edit _
  have clock : prompt.now (after 300 announced).world = 500 * Config.nanosPerMilli := by
    decide +kernel
  have due : requests.due .default (500 * Config.nanosPerMilli) = (· == .toBoard) := by
    funext direction
    cases direction <;> decide +kernel
  refine ⟨awaiting, by decide +kernel, by decide +kernel, next, ?_, by decide +kernel, ?_⟩
  · refine (poll_of_awaiting (waiting 299)).2.2.2.1 fun deadline next' => ?_
    rw [engine_after] at next'
    cases next.symm.trans next'
    decide +kernel
  · rw [(poll_of_awaiting (waiting 300)).1, clock, due]

end Lifeline
