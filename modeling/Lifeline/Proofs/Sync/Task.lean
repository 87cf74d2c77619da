import Lifeline.Sync.Engine

/-! What tasks come to.

A task comes to a value or to a fault, and leaves a session in either case. The rules follow the
operations of a task one by one, so that a statement about a long task is a chain of statements about
its operations. -/

set_option autoImplicit false

namespace Lifeline.Task

variable {σ α β : Type} {session : Session σ}

/-- Whether a task that starts in a session comes to a value that satisfies the one condition, or to a
fault that satisfies the other, each with the session that it leaves. -/
def Ends (task : Task σ α) (session : Session σ) (value : α → Session σ → Prop)
    (fault : Fault → Session σ → Prop) : Prop :=
  match task session with
  | (.ok result, after) => value result after
  | (.error reason, after) => fault reason after

def leave (phase : Phase) (session : Session σ) : Session σ :=
  if session.engine.phase = phase then
    { session with engine := { session.engine with phase := .idle } }
  else session

theorem exists_leave (phase : Phase) (session : Session σ) :
    ∃ phase', leave phase session =
      { session with engine := { session.engine with phase := phase' } } := by
  unfold leave
  split
  · exact ⟨.idle, rfl⟩
  · exact ⟨session.engine.phase, rfl⟩

namespace Ends

variable {value : α → Session σ → Prop} {value' : β → Session σ → Prop}
  {fault fault' : Fault → Session σ → Prop}

theorem pure {result : α} (holds : value result session) :
    Ends (Pure.pure result) session value fault := holds

theorem bind {task : Task σ α} {next : α → Task σ β}
    (ends : task.Ends session (fun result after => (next result).Ends after value' fault) fault) :
    (task >>= next).Ends session value' fault := by
  unfold Ends at *
  rw [bind_apply]
  generalize task session = ended at ends
  obtain ⟨_ | result, after⟩ := ended <;> exact ends

theorem mono {value' : α → Session σ → Prop} {task : Task σ α}
    (ends : task.Ends session value fault)
    (values : ∀ result after, value result after → value' result after)
    (faults : ∀ reason after, fault reason after → fault' reason after) :
    task.Ends session value' fault' := by
  unfold Ends at *
  generalize task session = ended at ends ⊢
  obtain ⟨reason | result, after⟩ := ended
  · exact faults reason after ends
  · exact values result after ends

theorem trivial (task : Task σ α) (session : Session σ) :
    task.Ends session (fun _ _ => True) fun _ _ => True := by
  unfold Ends
  split <;> exact True.intro

theorem came (task : Task σ α) (session : Session σ) :
    task.Ends session (fun result after => task session = (.ok result, after))
      fun reason after => task session = (.error reason, after) := by
  unfold Ends
  split <;> assumption

theorem and {value' : α → Session σ → Prop} {task : Task σ α}
    (first : task.Ends session value fault) (second : task.Ends session value' fault') :
    task.Ends session (fun result after => value result after ∧ value' result after)
      fun reason after => fault reason after ∧ fault' reason after := by
  unfold Ends at *
  generalize task session = ended at first second ⊢
  obtain ⟨_ | result, after⟩ := ended <;> exact ⟨first, second⟩

theorem ok {task : Task σ α} (ends : task.Ends session value fun _ _ => False) :
    ∃ result, (task session).1 = .ok result ∧ value result (task session).2 := by
  unfold Ends at ends
  split at ends
  · rename_i result after came
    exact ⟨result, by rw [came], by rwa [came]⟩
  · exact ends.elim

theorem of_ok {task : Task σ α} {result : α} (ends : task.Ends session value fault)
    (came : (task session).1.toOption = some result) : value result (task session).2 := by
  unfold Ends at ends
  generalize task session = ended at ends came ⊢
  obtain ⟨_ | _, after⟩ := ended <;> cases came
  exact ends

theorem after {holds : Session σ → Prop} {task : Task σ α}
    (ends : task.Ends session (fun _ => holds) fun _ => holds) : holds (task session).2 := by
  unfold Ends at ends
  generalize task session = ended at ends ⊢
  obtain ⟨_ | result, after⟩ := ended <;> exact ends

theorem engine {value : Engine → Session σ → Prop} (holds : value session.engine session) :
    Task.engine.Ends session value fault := holds

theorem modifyEngine {value : Unit → Session σ → Prop} {change : Engine → Engine}
    (holds : value () { session with engine := change session.engine }) :
    (Task.modifyEngine change).Ends session value fault := holds

theorem now {value : Nat → Session σ → Prop} {host : Host σ}
    (holds : value (host.now session.world) session) :
    (Task.now host).Ends session value fault := holds

theorem attempt {value : Except Breakdown α → Session σ → Prop} {call : Query σ α}
    (holds : value (call session.world).1 { session with world := (call session.world).2 }) :
    (Task.attempt call).Ends session value fault := holds

theorem query {call : Query σ α}
    (values : ∀ result world, call session.world = (.ok result, world) →
      value result { session with world := world })
    (faults : ∀ breakdown world, call session.world = (.error breakdown, world) →
      fault (.broken breakdown) { session with world := world }) :
    (Task.query call).Ends session value fault := by
  refine bind (attempt ?_)
  cases called : call session.world with
  | mk result world =>
    cases result with
    | error breakdown => exact faults breakdown world called
    | ok result => exact values result world called

theorem command {value : Unit → Session σ → Prop} {call : Command σ}
    (values : ∀ world, call session.world = (.ok (), world) →
      value () { session with world := world })
    (faults : ∀ reason world, call session.world = (.error reason, world) →
      fault reason { session with world := world }) :
    (Task.command call).Ends session value fault := by
  unfold Ends Task.command
  cases called : call session.world with
  | mk result world =>
    cases result with
    | error reason => exact faults reason world called
    | ok => exact values world called

theorem answered {call : Query σ α} {result : α} {world : σ}
    (called : call session.world = (.ok result, world))
    (holds : value result { session with world := world }) :
    (Task.query call).Ends session value fault := by
  refine query (fun result' world' called' => ?_) fun breakdown world' called' => ?_
  · cases called.symm.trans called'
    exact holds
  · cases called.symm.trans called'

theorem done {value : Unit → Session σ → Prop} {call : Command σ} {world : σ}
    (called : call session.world = (.ok (), world))
    (holds : value () { session with world := world }) :
    (Task.command call).Ends session value fault := by
  refine command (fun world' called' => ?_) fun reason world' called' => ?_
  · cases called.symm.trans called'
    exact holds
  · cases called.symm.trans called'

theorem recover {task : Task σ α} {handle : Fault → Task σ α}
    (ends : task.Ends session value fun reason after => (handle reason).Ends after value fault) :
    (Task.recover task handle).Ends session value fault := by
  unfold Ends Task.recover at *
  generalize task session = ended at ends
  obtain ⟨_ | result, after⟩ := ended <;> exact ends

theorem during {phase : Phase} {task : Task σ α}
    (ends : task.Ends { session with engine := { session.engine with phase := phase } }
      (fun result after => value result (leave phase after))
      fun reason after => fault reason (leave phase after)) :
    (Task.during phase task).Ends session value fault := by
  unfold Ends Task.during leave at *
  generalize task _ = ended at ends ⊢
  obtain ⟨_ | result, after⟩ := ended <;> by_cases same : after.engine.phase = phase <;>
    simpa [same] using ends

end Ends

/-! ## What tasks keep -/

/-- Whether a task keeps a condition of the session, also where a fault ends it. -/
def Keeps (holds : Session σ → Prop) (task : Task σ α) : Prop :=
  ∀ session, holds session → task.Ends session (fun _ => holds) fun _ => holds

namespace Keeps

variable {holds : Session σ → Prop}

theorem pure (result : α) : Keeps (σ := σ) holds (Pure.pure result) := fun _ kept => kept

theorem bind {task : Task σ α} {next : α → Task σ β} (first : task.Keeps holds)
    (later : ∀ result, (next result).Keeps holds) : (task >>= next).Keeps holds :=
  fun session kept => .bind ((first session kept).mono (fun result after => later result after)
    fun _ _ => id)

theorem engine : (Task.engine (σ := σ)).Keeps holds := fun _ kept => kept

theorem modifyEngine {change : Engine → Engine}
    (keeps : ∀ session, holds session →
      holds { session with engine := change session.engine }) :
    (Task.modifyEngine change).Keeps holds :=
  fun session => keeps session

theorem now (host : Host σ) : (Task.now host).Keeps holds := fun _ kept => kept

theorem recover {task : Task σ α} {handle : Fault → Task σ α} (first : task.Keeps holds)
    (later : ∀ reason, (handle reason).Keeps holds) : (Task.recover task handle).Keeps holds :=
  fun session kept => .recover ((first session kept).mono (fun _ _ => id)
    fun reason after => later reason after)

theorem query {holds : Engine → Prop} (call : Query σ α) :
    (Task.query call).Keeps fun session => holds session.engine :=
  fun _ kept => .query (fun _ _ _ => kept) fun _ _ _ => kept

theorem command {holds : Engine → Prop} (call : Command σ) :
    (Task.command call).Keeps fun session => holds session.engine :=
  fun _ kept => .command (fun _ _ => kept) fun _ _ _ => kept

end Keeps

end Lifeline.Task
