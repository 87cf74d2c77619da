import Lifeline.Proofs.Sync.Sound
import Mathlib.Data.List.Chain

/-! What an engine tells of its pauses.

A pause that too many errors bring about is told when it begins. A synchronization can count one more
error after that: the text that the analyzer broke down on is shown line by line, and that can fail as
well. The pause is told a second time then. It is not told at any other time, and between the notices
of one pause and those of the next there is a resumption. -/

set_option autoImplicit false

namespace Lifeline

open Lifeline.Task (Keeps)

/-- The number of errors at which an engine pauses. Without a limit the first one does it. -/
def Config.errorLimit (config : Config) : Nat := max 1 config.maxErrors

theorem Config.errorLimit_le_iff (config : Config) (count : Nat) :
    config.errorLimit ≤ count + 1 ↔ config.maxErrors ≤ count + 1 := by
  rw [errorLimit, Nat.max_le]
  exact and_iff_right (Nat.succ_pos count)

theorem Config.errorLimit_pos (config : Config) : 0 < config.errorLimit := Engine.zero_lt_limit config

/-- The notices that a pause comes to while errors are counted up to some number. -/
def pausesTold (limit count : Nat) : List Notification :=
  (List.range' limit (count + 1 - limit)).map .paused

theorem pausesTold_of_lt {limit count : Nat} (few : count < limit) : pausesTold limit count = [] := by
  rw [pausesTold, Nat.sub_eq_zero_of_le few]
  rfl

theorem pausesTold_self (limit : Nat) : pausesTold limit limit = [.paused limit] := by
  rw [pausesTold, Nat.add_sub_cancel_left]
  rfl

theorem pausesTold_succ {limit count : Nat} (many : limit ≤ count + 1) :
    pausesTold limit (count + 1) = pausesTold limit count ++ [.paused (count + 1)] := by
  rw [pausesTold, pausesTold, Nat.succ_sub many, List.range'_1_concat, List.map_append,
    Nat.add_sub_cancel' many]
  rfl

/-- A host on which a record is kept of what it is told. Nothing else is put into the record, and it is
kept also where the telling fails. -/
structure Host.Records {σ : Type} (host : Host σ) (record : σ → List Notification) : Prop where
  analyze (source : String) (world : σ) : record (host.analyze source world).2 = record world
  code (world : σ) : record (host.code world).2 = record world
  setCode (text : String) (world : σ) : record (host.setCode text world).2 = record world
  cursor (world : σ) : record (host.cursor world).2 = record world
  setCursor (selection : Selection) (world : σ) :
    record (host.setCursor selection world).2 = record world
  board (world : σ) : record (host.board world).2 = record world
  applyBoard (board : Storyboard) (world : σ) : record (host.applyBoard board world).2 = record world
  refresh (world : σ) : record (host.refresh world).2 = record world
  notify (notification : Notification) (world : σ) :
    record (host.notify notification world).2 = record world ++ [notification]
  drainEvents (world : σ) : record (host.drainEvents world).2 = record world

def Host.recorded {σ : Type} (host : Host σ) : Host (σ × List Notification) :=
  let query {α : Type} (call : Query σ α) : Query (σ × List Notification) α := fun world =>
    ((call world.1).1, (call world.1).2, world.2)
  let command (call : Command σ) : Command (σ × List Notification) := fun world =>
    ((call world.1).1, (call world.1).2, world.2)
  { now := fun world => host.now world.1
    analyze := fun source => query (host.analyze source)
    code := query host.code
    setCode := fun text => command (host.setCode text)
    cursor := query host.cursor
    setCursor := fun selection => query (host.setCursor selection)
    board := query host.board
    applyBoard := fun board => command (host.applyBoard board)
    refresh := command host.refresh
    notify := fun notification world =>
      ((host.notify notification world.1).1, (host.notify notification world.1).2,
        world.2 ++ [notification])
    drainEvents := query host.drainEvents }

theorem Host.records_recorded {σ : Type} (host : Host σ) : host.recorded.Records Prod.snd where
  analyze _ _ := rfl
  code _ := rfl
  setCode _ _ := rfl
  cursor _ := rfl
  setCursor _ _ := rfl
  board _ := rfl
  applyBoard _ _ := rfl
  refresh _ := rfl
  notify _ _ := rfl
  drainEvents _ := rfl

def Host.Breaks {σ : Type} (host : Host σ) : Prop :=
  ∃ source world breakdown, (host.analyze source world).1 = .error breakdown

namespace Engine

/-- What a record holds behind its earlier part, and how many errors are counted, while an engine does
not get out of a pause. -/
structure Notes (config : Config) (earlier : List Notification) (bound : Nat) (engine : Engine)
    (record : List Notification) : Prop where
  config_eq : engine.config = config
  record_eq : record = earlier ++ pausesTold config.errorLimit engine.errorCount
  paused : engine.phase = .paused ↔ config.errorLimit ≤ engine.errorCount
  count : engine.errorCount ≤ bound

variable {σ : Type} {host : Host σ} {record : σ → List Notification} {config : Config}
  {earlier : List Notification} {bound : Nat} {engine : Engine} {log : List Notification}

theorem Notes.mono {further : Nat} (notes : engine.Notes config earlier bound log)
    (more : bound ≤ further) : engine.Notes config earlier further log :=
  { notes with count := Nat.le_trans notes.count more }

theorem Notes.of_few (config_eq : engine.config = config)
    (few : engine.errorCount < config.errorLimit) (awake : engine.phase ≠ .paused) :
    engine.Notes config log (config.errorLimit - 1) log where
  config_eq := config_eq
  record_eq := by rw [pausesTold_of_lt few, List.append_nil]
  paused := ⟨fun paused => absurd paused awake, fun many => absurd few (Nat.not_lt.2 many)⟩
  count := Nat.le_sub_one_of_lt few

theorem Notes.few (notes : engine.Notes config earlier (config.errorLimit - 1) log) :
    engine.errorCount < config.errorLimit :=
  Nat.lt_of_le_sub_one config.errorLimit_pos notes.count

theorem Notes.few_of_awake (notes : engine.Notes config earlier bound log)
    (awake : engine.phase ≠ .paused) : engine.errorCount < config.errorLimit :=
  Nat.lt_of_not_le fun many => awake (notes.paused.2 many)

theorem Notes.reset (notes : engine.Notes config earlier (config.errorLimit - 1) log) :
    { engine with errorCount := 0 }.Notes config earlier (config.errorLimit - 1) log where
  config_eq := notes.config_eq
  record_eq := by
    rw [notes.record_eq, pausesTold_of_lt notes.few, pausesTold_of_lt config.errorLimit_pos]
  paused := ⟨fun paused => absurd notes.few (Nat.not_lt.2 (notes.paused.1 paused)),
    fun none => absurd config.errorLimit_pos (Nat.not_lt.2 none)⟩
  count := Nat.zero_le _

abbrev NotesIn (record : σ → List Notification) (config : Config) (earlier : List Notification)
    (bound : Nat) (session : Session σ) : Prop :=
  session.engine.Notes config earlier bound (record session.world)

/-- Whether the errors that are counted stay within a bound, but for one more if the analyzer can break
down. -/
def Noted (host : Host σ) (record : σ → List Notification) (config : Config)
    (earlier : List Notification) (bound : Nat) (session : Session σ) : Prop :=
  NotesIn record config earlier bound session ∨
    host.Breaks ∧ NotesIn record config earlier (bound + 1) session

theorem Noted.mono {further : Nat} {session : Session σ}
    (noted : Noted host record config earlier bound session) (more : bound ≤ further) :
    Noted host record config earlier further session :=
  noted.imp (·.mono more) fun broken => ⟨broken.1, broken.2.mono (Nat.succ_le_succ more)⟩

theorem Noted.imp_notes {session after : Session σ}
    (noted : Noted host record config earlier bound session)
    (keeps : ∀ bound, NotesIn record config earlier bound session →
      NotesIn record config earlier bound after) : Noted host record config earlier bound after :=
  noted.imp (keeps _) fun broken => ⟨broken.1, keeps _ broken.2⟩

theorem noted_of_keeps {α : Type} {task : Task σ α}
    (keeps : ∀ bound, task.Keeps (NotesIn record config earlier bound)) :
    task.Keeps (Noted host record config earlier bound) := by
  rintro session (notes | ⟨broken, notes⟩)
  · exact (keeps _ session notes).mono (fun _ _ => .inl) fun _ _ => .inl
  · exact (keeps _ session notes).mono (fun _ _ notes => .inr ⟨broken, notes⟩)
      fun _ _ notes => .inr ⟨broken, notes⟩

/-! ## What a synchronization tells -/

theorem keeps_untold {α ρ : Type} {call : Query σ α} {seen : σ → ρ} {holds : Engine → ρ → Prop}
    (untold : ∀ world, seen (call world).2 = seen world) :
    (Task.query call).Keeps fun session => holds session.engine (seen session.world) := by
  intro session kept
  refine .query (fun result world called => ?_) fun breakdown world called => ?_
  all_goals
    have same := untold session.world
    rw [called] at same
    exact same.symm ▸ kept

theorem keeps_unasked {ρ : Type} {call : Command σ} {seen : σ → ρ} {holds : Engine → ρ → Prop}
    (untold : ∀ world, seen (call world).2 = seen world) :
    (Task.command call).Keeps fun session => holds session.engine (seen session.world) := by
  intro session kept
  refine .command (fun world called => ?_) fun fault world called => ?_
  all_goals
    have same := untold session.world
    rw [called] at same
    exact same.symm ▸ kept

theorem notes_writeBoard (records : host.Records record) (board : Storyboard) (code : String)
    (cursor : Selection) :
    (writeBoard host board code cursor).Keeps (NotesIn record config earlier bound) :=
  .bind (keeps_unasked (records.applyBoard board)) fun _ =>
    .bind (keeps_unasked records.refresh) fun _ => keeps_untold (records.setCursor _)

theorem notes_fallBack (records : host.Records record) (code : String) (reason : ReadFailure)
    (cursor : Selection) :
    (fallBack host code reason cursor).Keeps (NotesIn record config earlier bound) := by
  refine .bind (keeps_untold records.board) fun board =>
    .bind (notes_writeBoard records _ _ _) fun _ => ?_
  refine .bind (.modifyEngine fun session notes => { notes with }) fun _ => ?_
  refine .bind (keeps_untold records.board) fun board => ?_
  exact .bind (.modifyEngine fun session notes => { notes with }) fun _ => .pure _

theorem notes_showDocument (records : host.Records record) (code : String) (document : Document)
    (cursor : Selection) (started : Nat) :
    (showDocument host code document cursor started).Keeps
      (NotesIn record config earlier (config.errorLimit - 1)) := by
  refine .bind (keeps_untold records.board) fun board =>
    .bind (notes_writeBoard records _ _ _) fun _ => ?_
  refine .bind (.now host) fun finished => .bind (.modifyEngine fun session notes => ?_) fun _ => ?_
  · exact { notes.reset with }
  · refine .bind (keeps_untold records.board) fun board => ?_
    exact .bind (.modifyEngine fun session notes => { notes with }) fun _ => .pure _

theorem notes_writeCode (records : host.Records record) (board : Storyboard) (old new : String)
    (started : Nat) :
    (writeCode host board old new started).Keeps
      (NotesIn record config earlier (config.errorLimit - 1)) := by
  refine .bind (keeps_untold records.cursor) fun cursor =>
    .bind (keeps_unasked (records.setCode new)) fun _ => ?_
  refine .bind (keeps_untold (records.setCursor _)) fun _ =>
    .bind (keeps_unasked records.refresh) fun _ => .bind (.now host) fun finished => ?_
  exact .bind (.modifyEngine fun session notes => { notes.reset with }) fun _ => .pure _

theorem notes_syncCode (records : host.Records record) :
    (syncCode host).Keeps (NotesIn record config earlier (config.errorLimit - 1)) := by
  refine .bind (.now host) fun started => .bind (keeps_untold records.board) fun board =>
    .bind .engine fun engine => ?_
  split
  · exact .bind (.modifyEngine fun session notes => { notes with }) fun _ => .pure _
  · refine .bind (keeps_untold records.code) fun old => ?_
    dsimp only
    split
    · exact .bind (.modifyEngine fun session notes => { notes with }) fun _ => .pure _
    · exact notes_writeCode records _ _ _ _

theorem countError_ends {session : Session σ} {holds : Session σ → Prop}
    (few : ¬ session.engine.config.maxErrors ≤ session.engine.errorCount + 1 →
      holds { session with engine := session.engine.charged })
    (many : session.engine.config.maxErrors ≤ session.engine.errorCount + 1 →
      holds ⟨session.engine.charged,
        (host.notify (.paused (session.engine.errorCount + 1)) session.world).2⟩) :
    (countError host).Ends session (fun _ => holds) fun _ => holds := by
  unfold charged at few many
  refine .bind (.modifyEngine (.bind (.engine ?_)))
  split
  · rename_i reached
    rw [if_pos reached] at many
    refine .bind (.modifyEngine (.query (fun _ world called => ?_) fun _ world called => ?_))
    all_goals
      have told := many reached
      rw [show host.notify _ session.world = (_, world) from called] at told
      exact told
  · rename_i missed
    rw [if_neg missed] at few
    exact few missed

theorem notes_countError (records : host.Records record) {session : Session σ}
    (notes : NotesIn record config earlier bound session) :
    (countError host).Ends session (fun _ => NotesIn record config earlier (bound + 1))
      fun _ => NotesIn record config earlier (bound + 1) := by
  have more : session.engine.errorCount + 1 ≤ bound + 1 := Nat.succ_le_succ notes.count
  apply countError_ends
  · intro few
    rw [NotesIn, charged, if_neg few]
    rw [notes.config_eq, ← config.errorLimit_le_iff] at few
    have before : session.engine.errorCount < config.errorLimit :=
      Nat.lt_of_succ_lt (Nat.lt_of_not_le few)
    refine ⟨notes.config_eq, ?_, ⟨fun paused => ?_, fun many => absurd many few⟩, more⟩
    · rw [notes.record_eq, pausesTold_of_lt before, pausesTold_of_lt (Nat.lt_of_not_le few)]
    · exact absurd (notes.paused.1 paused) (Nat.not_le.2 before)
  · intro many
    rw [NotesIn, charged, if_pos many]
    rw [notes.config_eq, ← config.errorLimit_le_iff] at many
    refine ⟨notes.config_eq, ?_, ⟨fun _ => many, fun _ => rfl⟩, more⟩
    rw [records.notify, notes.record_eq, List.append_assoc]
    exact congrArg (earlier ++ ·) (pausesTold_succ many).symm

theorem noted_countError (records : host.Records record) {session : Session σ}
    (noted : Noted host record config earlier bound session) :
    (countError host).Ends session (fun _ => Noted host record config earlier (bound + 1))
      fun _ => Noted host record config earlier (bound + 1) := by
  obtain notes | ⟨broken, notes⟩ := noted
  · exact (notes_countError records notes).mono (fun _ _ => .inl) fun _ _ => .inl
  · exact (notes_countError records notes).mono (fun _ _ notes => .inr ⟨broken, notes⟩)
      fun _ _ notes => .inr ⟨broken, notes⟩

theorem noted_judge (records : host.Records record) {code : String} {cursor : Selection}
    {started finished : Nat} {inTime : Bool} {result : Except Breakdown Analysis}
    {session : Session σ} (breaks : ∀ breakdown, result = .error breakdown → host.Breaks)
    (notes : NotesIn record config earlier (config.errorLimit - 1) session) :
    (judge host code cursor started finished inTime result).Ends session
      (fun _ => Noted host record config earlier (config.errorLimit - 1))
      fun _ => Noted host record config earlier (config.errorLimit - 1) := by
  have lone {task : Task σ SyncOutcome} {session : Session σ}
      (kept : task.Keeps (NotesIn record config earlier (config.errorLimit - 1)))
      (notes : NotesIn record config earlier (config.errorLimit - 1) session) :
      task.Ends session (fun _ => Noted host record config earlier (config.errorLimit - 1))
        fun _ => Noted host record config earlier (config.errorLimit - 1) :=
    (kept session notes).mono (fun _ _ => .inl) fun _ _ => .inl
  unfold judge judgeBy
  split
  · rename_i breakdown
    have broken := breaks breakdown rfl
    refine .bind ((notes_countError records notes).mono (fun _ _ notes => ?_)
      fun _ _ notes => .inr ⟨broken, notes⟩)
    exact (notes_fallBack records _ _ _ _ notes).mono (fun _ _ notes => .inr ⟨broken, notes⟩)
      fun _ _ notes => .inr ⟨broken, notes⟩
  · split
    · split
      · exact lone (notes_showDocument records _ _ _ _) notes
      · exact lone (notes_fallBack records _ _ _) notes
    · exact .bind (.modifyEngine (lone (notes_fallBack records _ _ _) { notes with }))

theorem noted_syncBoard (records : host.Records record) {code : String} {cursor : Selection}
    {session : Session σ} (notes : NotesIn record config earlier (config.errorLimit - 1) session) :
    (syncBoard host code cursor).Ends session
      (fun _ => Noted host record config earlier (config.errorLimit - 1))
      fun _ => Noted host record config earlier (config.errorLimit - 1) := by
  apply syncBoard_ends
  · intro _
    have refused : NotesIn record config earlier (config.errorLimit - 1)
        { session with engine := { session.engine with parseAttempts := 0 } } := { notes with }
    exact (notes_fallBack records _ _ _ _ refused).mono (fun _ _ => .inl) fun _ _ => .inl
  · intro _ read
    refine noted_judge records (fun breakdown broken => ⟨_, _, breakdown, broken⟩) ?_
    have same : record read.2 = record session.world := records.analyze _ _
    rw [NotesIn, same]
    exact { notes with }

theorem noted_leave {direction : Direction} {session : Session σ}
    (noted : Noted host record config earlier bound session) :
    Noted host record config earlier bound (Task.leave (.running direction) session) := by
  unfold Task.leave
  split
  · rename_i running
    refine noted.imp_notes fun bound notes => { notes with paused := ⟨nofun, fun many => ?_⟩ }
    exact absurd (running.symm.trans (notes.paused.2 many)) nofun
  · exact noted

theorem noted_running (records : host.Records record) {direction : Direction}
    {task : Task σ SyncOutcome} {session : Session σ} (awake : session.engine.phase ≠ .paused)
    (notes : NotesIn record config earlier (config.errorLimit - 1) session)
    (ends : ∀ session, NotesIn record config earlier (config.errorLimit - 1) session →
      task.Ends session (fun _ => Noted host record config earlier (config.errorLimit - 1))
        fun _ => Noted host record config earlier (config.errorLimit - 1)) :
    (Task.during (.running direction) do
      let outcome ← counted host direction task
      Task.query host.drainEvents
      return outcome).Ends session (fun _ => Noted host record config earlier config.errorLimit)
        fun _ => Noted host record config earlier config.errorLimit := by
  have running : NotesIn record config earlier (config.errorLimit - 1)
      { session with engine := { session.engine with phase := .running direction } } :=
    { notes with paused := ⟨nofun, fun many => absurd (notes.paused.2 many) awake⟩ }
  have drains : (Task.query host.drainEvents).Keeps
      (Noted host record config earlier config.errorLimit) :=
    noted_of_keeps fun bound => keeps_untold records.drainEvents
  have drained {outcome : SyncOutcome} {session : Session σ}
      (noted : Noted host record config earlier config.errorLimit session) :
      (do Task.query host.drainEvents; return outcome : Task σ SyncOutcome).Ends session
        (fun _ after => Noted host record config earlier config.errorLimit
          (Task.leave (.running direction) after))
        fun _ after => Noted host record config earlier config.errorLimit
          (Task.leave (.running direction) after) :=
    .bind ((drains session noted).mono (fun _ _ noted => .pure (noted_leave noted))
      fun _ _ => noted_leave)
  refine .during (.bind (.recover ((ends _ running).mono (fun outcome after noted => ?_)
    fun fault after noted => ?_)))
  · exact drained (noted.mono (Nat.sub_le _ _))
  · have counts := noted_countError records noted
    rw [Nat.sub_add_cancel config.errorLimit_pos] at counts
    exact .bind (counts.mono (fun _ _ noted => .pure (drained noted)) fun _ _ => noted_leave)

/-! ## What a call tells -/

theorem notes_of_noted {session : Session σ} (awake : session.engine.phase ≠ .paused)
    (noted : Noted host record config earlier bound session) :
    NotesIn record config earlier (config.errorLimit - 1) session := by
  obtain notes | ⟨-, notes⟩ := noted <;>
    exact { notes with count := Nat.le_sub_one_of_lt (notes.few_of_awake awake) }

theorem noted_toBoard (records : host.Records record) :
    (toBoard host).Keeps (Noted host record config earlier config.errorLimit) := by
  have quiet {session : Session σ} {world : σ} (same : record world = record session.world)
      (noted : Noted host record config earlier config.errorLimit session) :
      Noted host record config earlier config.errorLimit { session with world := world } :=
    noted.imp_notes fun _ notes => { notes with record_eq := same.trans notes.record_eq }
  intro session noted
  refine .bind (.engine ?_)
  split
  · exact noted
  · rename_i awake
    have code := records.code session.world
    refine .bind (.query (fun text asked called => ?_) fun _ asked called => ?_)
    all_goals
      rw [called] at code
      have code : record asked = record session.world := code
    · refine .bind (.engine ?_)
      split
      · exact quiet code noted
      · refine .bind (.now ?_)
        split
        · exact .bind (.modifyEngine
            ((quiet code noted).imp_notes fun bound notes => { notes with }))
        · have cursor := records.cursor asked
          refine .bind (.query (fun selection placed called => ?_) fun _ placed called => ?_)
          all_goals
            rw [called] at cursor
            have same : record placed = record session.world := Eq.trans cursor code
            have moved := quiet same noted
          · exact noted_running records awake (notes_of_noted awake moved)
              fun _ => noted_syncBoard records
          · exact moved
    · exact quiet code noted

theorem noted_toCode (records : host.Records record) :
    (toCode host).Keeps (Noted host record config earlier config.errorLimit) := by
  intro session noted
  refine .bind (.engine ?_)
  split
  · exact noted
  · rename_i awake
    refine noted_running records awake (notes_of_noted awake noted) fun session notes => ?_
    exact (notes_syncCode records session notes).mono (fun _ _ => .inl) fun _ _ => .inl

theorem noted_force (records : host.Records record) {direction : Direction} :
    (force host direction).Keeps (Noted host record config earlier config.errorLimit) := by
  have cancels {change : Engine → Engine}
      (changed : ∀ bound (session : Session σ), NotesIn record config earlier bound session →
        NotesIn record config earlier bound { session with engine := change session.engine }) :
      (Task.modifyEngine change).Keeps (Noted host record config earlier config.errorLimit) :=
    noted_of_keeps fun bound => .modifyEngine (changed bound)
  cases direction with
  | toBoard =>
    exact .bind (cancels fun _ _ notes => { notes with }) fun _ => noted_toBoard records
  | toCode =>
    exact .bind (cancels fun _ _ notes => { notes with }) fun _ => noted_toCode records

theorem noted_request {direction : Direction} :
    (request host direction).Keeps (Noted host record config earlier config.errorLimit) := by
  refine noted_of_keeps fun bound => .bind .engine fun engine => ?_
  split
  · exact .pure _
  · refine .bind (.now host) fun now => ?_
    cases direction <;> exact .bind (.modifyEngine fun _ notes => { notes with }) fun _ => .pure _

theorem noted_handle (records : host.Records record) (event : Event) :
    (handle host event).Keeps (Noted host record config earlier config.errorLimit) := by
  obtain ⟨_, same⟩ | ⟨_, same | ⟨direction, same⟩⟩ := handle_cases host event <;> rw [same]
  · exact noted_force records
  · exact noted_force records
  · exact noted_request

theorem noted_manual (records : host.Records record) {direction : Direction} :
    (manual host direction).Keeps (Noted host record config earlier config.errorLimit) := by
  unfold manual
  split
  · refine .bind (noted_of_keeps fun bound => .modifyEngine fun _ notes => ?_)
      fun _ => noted_force records
    exact { notes with }
  · exact noted_force records

theorem noted_initial (records : host.Records record) :
    (initial host).Keeps (Noted host record config earlier config.errorLimit) := by
  refine .bind (.now host) fun now => .bind (noted_of_keeps fun bound => .modifyEngine
    fun _ notes => { notes with }) fun _ => .bind (noted_of_keeps fun bound =>
    keeps_untold records.code) fun code => ?_
  split <;> exact noted_force records

theorem noted_poll (records : host.Records record) :
    (poll host).Keeps (Noted host record config earlier config.errorLimit) := by
  rw [poll_eq]
  refine .bind (.now host) fun now =>
    .bind (keeps_runDue (fun _ noted => ?_) (noted_toBoard records)) fun first =>
    .bind (keeps_runDue (fun _ noted => ?_) (noted_toCode records)) fun second =>
    .bind (keeps_renewReport fun _ _ noted => ?_) fun _ => .pure _
  all_goals exact noted.imp_notes fun _ notes => { notes with }

theorem noted_of_awake {world : σ} (config_eq : engine.config = config)
    (few : engine.errorCount < config.errorLimit) (awake : engine.phase ≠ .paused) :
    Noted host record config (record world) config.errorLimit ⟨engine, world⟩ :=
  .inl ((Notes.of_few config_eq few awake).mono (Nat.sub_le _ _))

theorem noted_resume (records : host.Records record) {session : Session σ}
    (config_eq : session.engine.config = config) :
    (resume host).Ends session
      (fun _ => Noted host record config (record session.world ++ [.resumed]) config.errorLimit)
      fun _ => Noted host record config (record session.world ++ [.resumed]) config.errorLimit := by
  have awake : (if session.engine.phase = .paused then .idle else session.engine.phase) ≠
      Phase.paused := by
    split
    · nofun
    · assumption
  have told := records.notify .resumed session.world
  refine .bind (.modifyEngine (.bind (.query (fun _ world called => ?_) fun _ world called => ?_)))
  all_goals
    rw [show host.notify .resumed session.world = (_, world) from called] at told
    have told : record world = record session.world ++ [.resumed] := told
    rw [← told]
  · exact noted_force records _ (noted_of_awake config_eq config.errorLimit_pos awake)
  · exact noted_of_awake config_eq config.errorLimit_pos awake

end Engine

namespace Call

open Engine

variable {σ : Type} {host : Host σ} {record : σ → List Notification} {config : Config}
  {session : Session σ} {call : Call}

def greeting : Call → List Notification
  | .resume => [.resumed]
  | _ => []

theorem greeting_of_ne (other : call ≠ .resume) : call.greeting = [] := by
  cases call with
  | resume => exact absurd rfl other
  | _ => rfl

/-- Whether the count of errors has taken an engine to its pause in the course of a call. -/
def Trips (call : Call) (before after : Engine) : Prop :=
  call ≠ .pause ∧ (call = .resume ∨ before.phase ≠ .paused) ∧ after.phase = .paused

/-- Whether a call tells of a pause that errors have brought about, and of nothing else: once, or
twice if one more error has been counted after the analyzer broke down. -/
def Tells (host : Host σ) (record : σ → List Notification) (config : Config) (call : Call)
    (before after : Session σ) : Prop :=
  ∃ notices, record after.world = record before.world ++ call.greeting ++ notices ∧
    (notices ≠ [] ↔ call.Trips before.engine after.engine) ∧
    (notices = [] ∨ notices = [.paused config.errorLimit] ∨
      host.Breaks ∧ after.engine.errorCount = config.errorLimit + 1 ∧
        notices = [.paused config.errorLimit, .paused (config.errorLimit + 1)])

theorem tells_of_noted {after : Session σ} (asked : call ≠ .pause)
    (awake : call = .resume ∨ session.engine.phase ≠ .paused)
    (noted : Noted host record config (record session.world ++ call.greeting) config.errorLimit after) :
    call.Tells host record config session after := by
  have told {bound : Nat}
      (notes : NotesIn record config (record session.world ++ call.greeting) bound after) :
      pausesTold config.errorLimit after.engine.errorCount ≠ [] ↔
        call.Trips session.engine after.engine := by
    rw [Trips, and_iff_right asked, and_iff_right awake, notes.paused, ne_eq, pausesTold,
      List.map_eq_nil_iff, List.range'_eq_nil_iff]
    omega
  have once {count : Nat} (few : count ≤ config.errorLimit) :
      pausesTold config.errorLimit count = [] ∨
        pausesTold config.errorLimit count = [.paused config.errorLimit] := by
    obtain few | same := Nat.lt_or_eq_of_le few
    · exact .inl (pausesTold_of_lt few)
    · exact .inr (same ▸ pausesTold_self count)
  obtain notes | ⟨broken, notes⟩ := noted
  · exact ⟨_, notes.record_eq, told notes, (once notes.count).imp_right .inl⟩
  · refine ⟨_, notes.record_eq, told notes, ?_⟩
    obtain few | same := Nat.lt_or_eq_of_le notes.count
    · exact (once (Nat.le_of_lt_succ few)).imp_right .inl
    · refine .inr (.inr ⟨broken, same, ?_⟩)
      rw [same, pausesTold_succ (Nat.le_succ _), pausesTold_self]
      rfl

theorem untold_of_paused (records : host.Records record) (asked : call ≠ .resume)
    (paused : session.engine.phase = .paused) :
    (call.perform host).Ends session
      (fun _ after => after.engine.phase = .paused ∧ record after.world = record session.world)
      fun _ after => after.engine.phase = .paused ∧ record after.world = record session.world := by
  by_cases first : call = .initial
  · subst first
    refine single_ends ((rests_initial host paused).mono (fun _ after rests => ?_)
      fun _ after rests => ?_) <;> exact ⟨rests.1, by rw [rests.2, records.code]⟩
  · refine (rests_perform host asked first session ⟨paused, rfl⟩).mono (fun _ after rests => ?_)
      fun _ after rests => ?_ <;> exact ⟨rests.1, by rw [rests.2]⟩

theorem noted_perform (records : host.Records record) {earlier : List Notification}
    (asked : call ≠ .pause) (other : call ≠ .resume) :
    (call.perform host).Keeps (Noted host record config earlier config.errorLimit) := by
  cases call with
  | initial => exact keeps_single (noted_initial records)
  | event raised => exact keeps_single (noted_handle records raised)
  | request direction => exact keeps_single noted_request
  | force direction => exact keeps_single (noted_force records)
  | manual direction => exact keeps_single (noted_manual records)
  | poll => exact noted_poll records
  | pause => exact absurd rfl asked
  | resume => exact absurd rfl other

theorem tells_perform (records : host.Records record) (call : Call)
    (sound : session.engine.Sound config .idle) :
    (call.perform host).Ends session
      (fun _ after => call.Tells host record config session after ∧
        (after.engine.phase ≠ .paused → call = .resume ∨ session.engine.phase ≠ .paused))
      fun _ after => call.Tells host record config session after ∧
        (after.engine.phase ≠ .paused → call = .resume ∨ session.engine.phase ≠ .paused) := by
  have awakes {after : Session σ} (asked : call ≠ .pause)
      (awake : call = .resume ∨ session.engine.phase ≠ .paused)
      (noted : Noted host record config (record session.world ++ call.greeting) config.errorLimit
        after) :
      call.Tells host record config session after ∧
        (after.engine.phase ≠ .paused → call = .resume ∨ session.engine.phase ≠ .paused) :=
    ⟨tells_of_noted asked awake noted, fun _ => awake⟩
  by_cases resumes : call = .resume
  · subst resumes
    exact single_ends ((noted_resume records sound.config_eq).mono
      (fun _ _ => awakes nofun (.inl rfl)) fun _ _ => awakes nofun (.inl rfl))
  have silent := greeting_of_ne resumes
  have untold {after : Session σ} (same : record after.world = record session.world)
      (quiet : ¬ call.Trips session.engine after.engine) :
      call.Tells host record config session after := by
    refine ⟨[], ?_, iff_of_false (absurd rfl) quiet, .inl rfl⟩
    rw [silent, List.append_nil, List.append_nil, same]
  by_cases paused : session.engine.phase = .paused
  · have quiet {after : Session σ} (same : after.engine.phase = .paused ∧
        record after.world = record session.world) :
        call.Tells host record config session after ∧
          (after.engine.phase ≠ .paused → call = .resume ∨ session.engine.phase ≠ .paused) :=
      ⟨untold same.2 fun trips => trips.2.1.elim resumes (absurd paused),
        fun awake => absurd same.1 awake⟩
    exact (untold_of_paused records resumes paused).mono (fun _ _ => quiet) fun _ _ => quiet
  by_cases pauses : call = .pause
  · subst pauses
    exact .bind (.modifyEngine ⟨untold rfl fun trips => trips.1 rfl, fun _ => .inr paused⟩)
  · have noted : Noted host record config (record session.world ++ call.greeting)
        config.errorLimit session := by
      rw [silent, List.append_nil]
      exact noted_of_awake sound.config_eq (sound.errors paused) paused
    exact (noted_perform records pauses resumes session noted).mono
      (fun _ _ => awakes pauses (.inr paused)) fun _ _ => awakes pauses (.inr paused)

end Call

namespace Engine

variable {σ : Type} {host : Host σ} {record : σ → List Notification} {config : Config}

/-- Whether one notice may follow another one: a pause follows a resumption, but for the second notice
of one and the same pause. -/
def MayFollow (host : Host σ) (config : Config) (first second : Notification) : Prop :=
  first = .resumed ∨ second = .resumed ∨
    host.Breaks ∧ first = .paused config.errorLimit ∧ second = .paused (config.errorLimit + 1)

structure Alternates (host : Host σ) (record : σ → List Notification) (config : Config)
    (session : Session σ) : Prop where
  sound : session.engine.Sound config .idle
  chain : (record session.world).IsChain (MayFollow host config)
  resumed : session.engine.phase ≠ .paused → ∀ last ∈ (record session.world).getLast?, last = .resumed

theorem Alternates.tells {session after : Session σ} {call : Call}
    (alternates : Alternates host record config session)
    (sound : after.engine.Sound config .idle)
    (tells : call.Tells host record config session after)
    (awake : after.engine.phase ≠ .paused → call = .resume ∨ session.engine.phase ≠ .paused) :
    Alternates host record config after := by
  obtain ⟨notices, same, trips, few⟩ := tells
  have opened : (record session.world ++ call.greeting).IsChain (MayFollow host config) ∧
      (call = .resume ∨ session.engine.phase ≠ .paused →
        ∀ last ∈ (record session.world ++ call.greeting).getLast?, last = .resumed) := by
    by_cases resumes : call = .resume
    · subst resumes
      refine ⟨List.isChain_append.2 ⟨alternates.chain, .singleton _, ?_⟩, fun _ => ?_⟩
      · exact fun _ _ next found => .inr (.inl (Option.some.inj found).symm)
      · simp [Call.greeting]
    · rw [Call.greeting_of_ne resumes, List.append_nil]
      exact ⟨alternates.chain, fun awake => alternates.resumed (awake.resolve_left resumes)⟩
  obtain ⟨chain, resumed⟩ := opened
  refine ⟨sound, ?_, fun running => ?_⟩
  · rw [same]
    refine List.isChain_append.2 ⟨chain, ?_, fun last found next member => .inl ?_⟩
    · obtain rfl | rfl | ⟨broken, -, rfl⟩ := few
      · exact .nil
      · exact .singleton _
      · exact .cons_cons (.inr (.inr ⟨broken, rfl, rfl⟩)) (.singleton _)
    · have told : notices ≠ [] := by
        rintro rfl
        cases member
      exact resumed (trips.1 told).2.1 last found
  · have none : notices = [] := Decidable.not_not.1 fun told => running (trips.1 told).2.2
    rw [same, none, List.append_nil]
    exact resumed (awake running)

/-- In every run over whatever host, a call tells of a pause if and only if it has counted the error
that brings the pause about. It tells of it once, but for one case: the analyzer has broken down on a
text, that was the error to bring the pause about, and showing the text line by line failed as well.
Between the notices of one pause and those of the next one there is a resumption. -/
theorem tells_of_reaches (records : host.Records record) {world : σ} (blank : record world = [])
    {past : List SyncOutcome} {session : Session σ}
    (reached : Reaches host (fun _ => True) (fun before after => record after = record before)
      ⟨.new config, world⟩ past session) :
    (record session.world).IsChain (MayFollow host config) ∧
      ∀ call : Call, (call.perform host).Ends session
        (fun _ after => call.Tells host record config session after)
        fun _ after => call.Tells host record config session after := by
  have alternates : Alternates host record config session := by
    refine reached.keeps (fun _ => Alternates host record config) ⟨sound_new config, ?_, ?_⟩
      (fun _ session call _ alternates => ?_) fun _ session after same alternates => ?_
    · rw [blank]
      exact .nil
    · intro _ last found
      rw [blank] at found
      cases found
    · have tells := Call.tells_perform records call alternates.sound
      exact (tells.and (call.keeps_perform session alternates.sound)).mono
        (fun _ _ both => alternates.tells both.2 both.1.1 both.1.2)
        fun _ _ both => alternates.tells both.2 both.1.1 both.1.2
    · refine ⟨alternates.sound, ?_, ?_⟩ <;> rw [show record after = _ from same]
      · exact alternates.chain
      · exact alternates.resumed
  exact ⟨alternates.chain, fun call =>
    (Call.tells_perform records call alternates.sound).mono (fun _ _ => And.left) fun _ _ => And.left⟩

end Engine

def Notepad.refusing (analyze : String → Query Notepad Analysis) :
    Host (Notepad × List Notification) :=
  { Notepad.host analyze with
    applyBoard := fun _ pad => (.error (.refused "read only"), pad) }.recorded

def Notepad.strict (text : String) : Session (Notepad × List Notification) :=
  ⟨.new { Config.default with maxErrors := 1 }, (Notepad.opened .default text).world, []⟩

open Notepad in
theorem Engine.tells_of_reaches_resumed :
    let host := refusing (analyzeFor 0)
    let config := { Config.default with maxErrors := 1 }
    let session := ((Call.force .toBoard).perform host (strict "A -> B : hi")).2
    let after := (Call.resume.perform host session).2
    session.world.2 = [.paused 1] ∧ after.world.2 = [.paused 1, .resumed, .paused 1] ∧
      session.world.2.IsChain (MayFollow host config) ∧
      Call.resume.Tells host Prod.snd config session after := by
  intro host config session after
  have records : host.Records Prod.snd := Host.records_recorded _
  have reached : Reaches host (fun _ => True) (fun before after => after.2 = before.2)
      (strict "A -> B : hi") _ session := .call (.force .toBoard) .start trivial
  obtain ⟨chain, tells⟩ := tells_of_reaches records rfl reached
  exact ⟨by decide +kernel, by decide +kernel, chain, (tells .resume).after⟩

open Notepad in
/-- A text on which the analyzer breaks down, and whose lines cannot be shown either: the pause that
the breakdown brings about is told twice, with no resumption in between. -/
theorem Engine.tells_of_reaches_twice :
    let broken := refusing fun _ pad => (.error ⟨"grammar exploded"⟩, pad)
    let after := ((Call.force .toBoard).perform broken (strict "A -> B : one")).2
    after.world.2 = [.paused 1, .paused 2] ∧ after.engine.phase = .paused ∧
      after.engine.errorCount = 2 := by
  decide +kernel

end Lifeline
