import Lifeline.Proofs.Sync.Notepad
import Lifeline.Proofs.Sync.Paused

/-! What holds of an engine between any two calls, whatever its host does.

An engine is idle or paused. A paused engine has nothing scheduled, and one that is not paused has
counted fewer errors than pause it. Attempts stay within their limit, and no reading is left racing
against its time limit. -/

set_option autoImplicit false

namespace Lifeline

open Lifeline.Task (Keeps)

namespace Engine

/-- What holds of an engine with some settings. In `active` it is where it is not paused. -/
structure Sound (config : Config) (active : Phase) (engine : Engine) : Prop where
  config_eq : engine.config = config
  phase : engine.phase = active ∨ engine.phase = .paused
  slots : engine.phase = .paused →
    engine.codeDebounce.isPending = false ∧ engine.boardDebounce.isPending = false
  errors : engine.phase ≠ .paused → engine.errorCount < max 1 config.maxErrors
  attempts : engine.parseAttempts ≤ config.maxParseAttempts
  race : engine.parseTimeout.isPending = false

variable {config : Config} {active : Phase} {engine : Engine}

theorem zero_lt_limit (config : Config) : 0 < max 1 config.maxErrors :=
  Nat.lt_of_lt_of_le Nat.zero_lt_one (Nat.le_max_left _ _)

theorem sound_new (config : Config) : (Engine.new config).Sound config .idle where
  config_eq := rfl
  phase := .inl rfl
  slots := nofun
  errors _ := zero_lt_limit config
  attempts := Nat.zero_le _
  race := rfl

/-- A pause needs no more of an engine than that its attempts and its race are in order. -/
theorem sound_halt (config_eq : engine.config = config)
    (attempts : engine.parseAttempts ≤ config.maxParseAttempts)
    (race : engine.parseTimeout.isPending = false) : engine.halt.Sound config active where
  config_eq := config_eq
  phase := .inr rfl
  slots _ := ⟨Timer.isPending_cancel _, Timer.isPending_cancel _⟩
  errors running := absurd rfl running
  attempts := attempts
  race := race

variable {σ : Type} {host : Host σ}

abbrev SoundIn (config : Config) (active : Phase) (session : Session σ) : Prop :=
  session.engine.Sound config active

/-! ## What a synchronization keeps -/

theorem keeps_countError : (countError host).Keeps (SoundIn config active) := by
  intro session sound
  refine .bind (.modifyEngine (.bind (.engine ?_)))
  split
  · refine .bind (.modifyEngine (Keeps.query _ _ ?_))
    exact sound_halt sound.config_eq sound.attempts sound.race
  · rename_i few
    have few : session.engine.errorCount + 1 < session.engine.config.maxErrors :=
      Nat.lt_of_not_le few
    rw [sound.config_eq] at few
    exact .pure { sound with errors := fun _ => Nat.lt_of_lt_of_le few (Nat.le_max_right _ _) }

theorem keeps_counted {direction : Direction} {task : Task σ SyncOutcome}
    (kept : task.Keeps (SoundIn config active)) :
    (counted host direction task).Keeps (SoundIn config active) :=
  .recover kept fun _ => .bind keeps_countError fun _ => .pure _

theorem keeps_writeBoard (board : Storyboard) (code : String) (cursor : Selection)
    {holds : Engine → Prop} :
    (writeBoard host board code cursor).Keeps fun session => holds session.engine :=
  .bind (.command _) fun _ => .bind (.command _) fun _ => .query _

theorem keeps_fallBack (code : String) (reason : ReadFailure) (cursor : Selection) :
    (fallBack host code reason cursor).Keeps (SoundIn config active) := by
  refine .bind (.query _) fun board => .bind (keeps_writeBoard _ _ _) fun _ => ?_
  refine .bind (.modifyEngine fun session sound => { sound with }) fun _ => ?_
  refine .bind (.query _) fun board => ?_
  exact .bind (.modifyEngine fun session sound => { sound with }) fun _ => .pure _

theorem keeps_showDocument (code : String) (document : Document) (cursor : Selection)
    (started : Nat) :
    (showDocument host code document cursor started).Keeps (SoundIn config active) := by
  refine .bind (.query _) fun board => .bind (keeps_writeBoard _ _ _) fun _ => ?_
  refine .bind (.now host) fun finished => .bind (.modifyEngine fun session sound => ?_) fun _ => ?_
  · exact { sound with errors := fun _ => zero_lt_limit config, attempts := Nat.zero_le _ }
  · refine .bind (.query _) fun board => ?_
    exact .bind (.modifyEngine fun session sound => { sound with }) fun _ => .pure _

theorem keeps_judge (code : String) (cursor : Selection) (started finished : Nat) (inTime : Bool)
    (result : Except Breakdown Analysis) :
    (judge host code cursor started finished inTime result).Keeps (SoundIn config active) := by
  unfold judge judgeBy
  split
  · exact .bind keeps_countError fun _ => keeps_fallBack _ _ _
  · split
    · split
      · exact keeps_showDocument _ _ _ _
      · exact keeps_fallBack _ _ _
    · exact .bind (.modifyEngine fun session sound => { sound with }) fun _ => keeps_fallBack _ _ _

theorem keeps_syncBoard (code : String) (cursor : Selection) :
    (syncBoard host code cursor).Keeps (SoundIn config active) := by
  intro session sound
  apply syncBoard_ends
  · intro _
    exact keeps_fallBack _ _ _ _ { sound with attempts := Nat.zero_le _ }
  · intro left
    rw [sound.config_eq] at left
    refine keeps_judge _ _ _ _ _ _ _ ?_
    exact { sound with attempts := left, race := Timer.isPending_cancel _ }

theorem keeps_writeCode (board : Storyboard) (old new : String) (started : Nat) :
    (writeCode host board old new started).Keeps (SoundIn config active) := by
  refine .bind (.query _) fun cursor => .bind (.command _) fun _ => ?_
  refine .bind (.query _) fun _ => .bind (.command _) fun _ => .bind (.now host) fun finished => ?_
  refine .bind (.modifyEngine fun session sound => ?_) fun _ => .pure _
  exact { sound with errors := fun _ => zero_lt_limit config }

theorem keeps_syncCode : (syncCode host).Keeps (SoundIn config active) := by
  refine .bind (.now host) fun started => .bind (.query _) fun board => .bind .engine fun engine => ?_
  split
  · exact .bind (.modifyEngine fun session sound => { sound with }) fun _ => .pure _
  · refine .bind (.query _) fun old => ?_
    dsimp only
    split
    · exact .bind (.modifyEngine fun session sound => { sound with }) fun _ => .pure _
    · exact keeps_writeCode _ _ _ _

/-! ## What an entry point keeps -/

variable {session : Session σ} {direction : Direction}

theorem sound_leave (sound : session.engine.Sound config (.running direction)) :
    (Task.leave (.running direction) session).engine.Sound config .idle := by
  unfold Task.leave
  split
  · rename_i running
    have awake : session.engine.phase ≠ .paused := by rw [running]; nofun
    exact { sound with phase := .inl rfl, slots := nofun, errors := fun _ => sound.errors awake }
  · rename_i changed
    exact { sound with phase := .inr (sound.phase.resolve_left changed) }

theorem ends_running {task : Task σ SyncOutcome}
    (kept : task.Keeps (SoundIn config (.running direction)))
    (sound : session.engine.Sound config .idle) (awake : session.engine.phase ≠ .paused) :
    (Task.during (.running direction) do
        let outcome ← counted host direction task
        Task.query host.drainEvents
        return outcome).Ends session (fun _ => SoundIn config .idle)
      fun _ => SoundIn config .idle := by
  have runs : (do
      let outcome ← counted host direction task
      Task.query host.drainEvents
      return outcome).Keeps (SoundIn config (.running direction)) :=
    .bind (keeps_counted kept) fun _ => .bind (.query _) fun _ => .pure _
  refine .during ((runs _ ?_).mono (fun _ _ => sound_leave) fun _ _ => sound_leave)
  exact { sound with phase := .inl rfl, slots := nofun, errors := fun _ => sound.errors awake }

theorem keeps_toBoard : (toBoard host).Keeps (SoundIn config .idle) := by
  intro session sound
  refine .bind (.engine ?_)
  split
  · exact sound
  · rename_i awake
    refine .bind (.query (fun code world _ => .bind (.engine ?_)) fun _ _ _ => sound)
    split
    · exact sound
    · refine .bind (.now ?_)
      split
      · exact .bind (.modifyEngine { sound with })
      · refine .bind (.query (fun cursor world _ => ?_) fun _ _ _ => sound)
        exact ends_running (keeps_syncBoard code cursor) sound awake

theorem keeps_toCode : (toCode host).Keeps (SoundIn config .idle) := by
  intro session sound
  refine .bind (.engine ?_)
  split
  · exact sound
  · rename_i awake
    exact ends_running keeps_syncCode sound awake

theorem keeps_force : (force host direction).Keeps (SoundIn config .idle) := by
  cases direction with
  | toBoard =>
    refine .bind (.modifyEngine fun session sound => ?_) fun _ => keeps_toBoard
    exact { sound with slots := fun paused => ⟨Timer.isPending_cancel _, (sound.slots paused).2⟩ }
  | toCode =>
    refine .bind (.modifyEngine fun session sound => ?_) fun _ => keeps_toCode
    exact { sound with slots := fun paused => ⟨(sound.slots paused).1, Timer.isPending_cancel _⟩ }

theorem keeps_request : (request host direction).Keeps (SoundIn config .idle) := by
  intro session sound
  refine .bind (.engine ?_)
  split
  · exact sound
  · rename_i awake
    refine .bind (.now ?_)
    cases direction <;>
      exact .bind (.modifyEngine { sound with slots := fun paused => absurd paused awake })

theorem keeps_manual : (manual host direction).Keeps (SoundIn config .idle) := by
  unfold manual
  split
  · exact .bind (.modifyEngine fun session sound => { sound with }) fun _ => keeps_force
  · exact keeps_force

theorem keeps_handle (event : Event) : (handle host event).Keeps (SoundIn config .idle) := by
  unfold handle
  cases event with
  | textBlur | actionReordered => exact keeps_force
  | _ => exact keeps_request

theorem keeps_initial : (initial host).Keeps (SoundIn config .idle) := by
  refine .bind (.now host) fun now => .bind (.modifyEngine fun session sound => { sound with }) ?_
  refine fun _ => .bind (.query _) fun code => ?_
  split <;> exact keeps_force

theorem keeps_poll : (poll host).Keeps (SoundIn config .idle) := by
  rw [poll_eq]
  refine .bind (.now host) fun now => .bind (keeps_runDue (fun session sound => ?_) keeps_toBoard) ?_
  · exact { sound with
      slots := fun paused =>
        ⟨Timer.isPending_takeDue (sound.slots paused).1, (sound.slots paused).2⟩ }
  · refine fun first => .bind (keeps_runDue (fun session sound => ?_) keeps_toCode) fun second => ?_
    · exact { sound with
        slots := fun paused =>
          ⟨(sound.slots paused).1, Timer.isPending_takeDue (sound.slots paused).2⟩ }
    · exact .bind (keeps_renewReport fun session timer sound => { sound with }) fun _ => .pure _

theorem keeps_pause : (pause (σ := σ)).Keeps (SoundIn config active) := by
  refine .modifyEngine fun session sound => ?_
  split
  · exact sound
  · exact sound_halt sound.config_eq sound.attempts sound.race

theorem keeps_resume : (resume host).Keeps (SoundIn config .idle) := by
  refine .bind (.modifyEngine fun session sound => ?_) fun _ => .bind (.query _) fun _ => keeps_force
  have awake : (if session.engine.phase = .paused then .idle else session.engine.phase) =
      Phase.idle := by
    split
    · rfl
    · exact sound.phase.resolve_right ‹_›
  exact {
    config_eq := sound.config_eq
    phase := .inl awake
    slots := fun paused => absurd (awake.symm.trans paused) nofun
    errors := fun _ => zero_lt_limit config
    attempts := Nat.zero_le _
    race := sound.race }

end Engine

open Engine in
theorem Call.keeps_perform {σ : Type} {host : Host σ} {config : Config} (call : Call) :
    (call.perform host).Keeps (SoundIn config .idle) := by
  cases call with
  | initial => exact keeps_single keeps_initial
  | event raised => exact keeps_single (keeps_handle raised)
  | request direction => exact keeps_single keeps_request
  | force direction => exact keeps_single keeps_force
  | manual direction => exact keeps_single keeps_manual
  | poll => exact keeps_poll
  | pause => exact .bind keeps_pause fun _ => .pure _
  | resume => exact keeps_single keeps_resume

open Engine in
theorem Reaches.sound {σ : Type} {host : Host σ} {config : Config} {calls : Call → Prop}
    {edits : σ → σ → Prop} {start session : Session σ} {past : List SyncOutcome}
    (reached : Reaches host calls edits start past session)
    (sound : start.engine.Sound config .idle) : session.engine.Sound config .idle :=
  reached.keeps (fun _ => SoundIn config .idle) sound
    (fun _ session call _ => call.keeps_perform session) fun _ _ _ _ => id

/-- Between any two calls an engine is sound, however its host behaves and whatever happens to its
surroundings. In a pause it stays paused and leaves its host alone until it is resumed, but that a
first synchronization reads the text. -/
theorem Engine.sound_of_reaches {σ : Type} {host : Host σ} {config : Config} {world : σ}
    {past : List SyncOutcome} {session : Session σ}
    (reached : Reaches host (fun _ => True) (fun _ _ => True) ⟨.new config, world⟩ past session) :
    session.engine.Sound config .idle ∧
      (session.engine.phase = .paused → ∀ call : Call, call ≠ .resume →
        let after := (call.perform host session).2
        after.engine.phase = .paused ∧
          (after.world = session.world ∨
            call = .initial ∧ after.world = (host.code session.world).2)) :=
  ⟨reached.keeps (fun _ => SoundIn config .idle) (sound_new config)
      (fun _ session call _ => call.keeps_perform session) fun _ _ _ _ sound => sound,
    fun paused _ asked => Call.perform_of_paused host asked paused⟩

open Notepad in
theorem Engine.sound_of_reaches_refused :
    let refusing : Host Notepad :=
      { host (analyzeFor 0) with applyBoard := fun _ pad => (.error (.refused "read only"), pad) }
    let strict := { Config.default with maxErrors := 1 }
    let session := ((Call.force .toBoard).perform refusing (opened strict "A -> B : hi")).2
    session.engine.phase = .paused ∧ session.engine.Sound strict .idle ∧
      (Call.poll.perform refusing session).2.engine.phase = .paused := by
  intro refusing strict session
  have paused : session.engine.phase = .paused := by decide +kernel
  obtain ⟨sound, rests⟩ := sound_of_reaches (.call (.force .toBoard) .start trivial)
  exact ⟨paused, sound, (rests paused .poll nofun).1⟩

end Lifeline
