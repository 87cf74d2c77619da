import Lifeline.Proofs.Sync.Remembered
import Lifeline.Proofs.Sync.Slots

/-! What becomes of a text that has been announced.

An announced text stays scheduled until it is read, unless the engine is paused. A reading attends to
it, but for one that comes too soon after an attempt at reading: it is turned away, and nothing is
scheduled in its place. -/

set_option autoImplicit false

namespace Lifeline

structure Host.Answers {σ : Type} (host : Host σ) : Prop where
  code (world : σ) : ∃ text after, host.code world = (.ok text, after)
  cursor (world : σ) : ∃ selection after, host.cursor world = (.ok selection, after)
  notify (notification : Notification) (world : σ) :
    ∃ after, host.notify notification world = (.ok (), after)
  drainEvents (world : σ) : ∃ after, host.drainEvents world = (.ok (), after)

/-- A host whose calls succeed. Its analyzer may break down, and nothing is said of what becomes of what
is written; the text that it tells is the one that it has. -/
structure Host.Succeeds {σ : Type} (host : Host σ) (text : σ → String) : Prop where
  code (world : σ) :
    ∃ after, host.code world = (.ok (text world), after) ∧ text after = text world
  setCode (new : String) (world : σ) : ∃ after, host.setCode new world = (.ok (), after)
  cursor (world : σ) : ∃ selection after, host.cursor world = (.ok selection, after)
  setCursor (selection : Selection) (world : σ) :
    ∃ after, host.setCursor selection world = (.ok (), after)
  board (world : σ) : ∃ board after, host.board world = (.ok board, after)
  applyBoard (board : Storyboard) (world : σ) : ∃ after, host.applyBoard board world = (.ok (), after)
  refresh (world : σ) : ∃ after, host.refresh world = (.ok (), after)
  notify (notification : Notification) (world : σ) :
    ∃ after, host.notify notification world = (.ok (), after)
  drainEvents (world : σ) : ∃ after, host.drainEvents world = (.ok (), after)

namespace SyncOutcome

/-- Whether a reading has attended to a text: it was shown, as it reads or line by line, or it was
known already. -/
def Attends : SyncOutcome → Prop
  | .applied direction _ => direction = .toBoard
  | .fallback .. | .unchanged => True
  | _ => False

/-- Whether a reading has attended to a text or was turned away because it came too soon. -/
def Answers (outcome : SyncOutcome) : Prop :=
  outcome.Attends ∨ outcome = .skipped .rateLimited

def Begin (outcomes : List SyncOutcome) : Prop :=
  ∃ reading rest, outcomes = reading :: rest ∧ reading.Answers

end SyncOutcome

/-- Whether a text that is scheduled in one session still is in another one that is not paused. -/
def Session.Defers {σ : Type} (session after : Session σ) : Prop :=
  after.engine.phase ≠ .paused → session.engine.codeDebounce.isPending = true →
    after.engine.codeDebounce.isPending = true

namespace Call

variable {σ : Type}

/-- Whether a call has the text read at once. A first synchronization reads a text that is not blank,
and polling reads a text that is due. -/
def reads (host : Host σ) (session : Session σ) : Call → Bool
  | .initial => (host.code session.world).1.toOption.any fun text => !(Text.trim text.toList).isEmpty
  | .event raised => raised == .textBlur
  | .force direction | .manual direction => direction == .toBoard
  | .poll => (session.engine.codeDebounce.takeDue (host.now session.world)).1.isSome
  | .resume => true
  | .request _ | .pause => false

/-- What has become of the text that a call has read: no synchronization comes before a reading. -/
def readings (host : Host σ) (session : Session σ) (call : Call) : List SyncOutcome :=
  if call.reads host session then (outcomes (call.perform host session).1).take 1 else []

end Call

/-- Whether a session can come to be from another one while the text stays as it is and the engine is
not paused, with what has become of all readings on the way, oldest first. -/
inductive Lasts {σ : Type} (host : Host σ) (text : σ → String) (start : Session σ) :
    List SyncOutcome → Session σ → Prop where
  | start : start.engine.phase ≠ .paused → Lasts host text start [] start
  | call {readings : List SyncOutcome} {session : Session σ} (call : Call) :
      Lasts host text start readings session →
      (call.perform host session).2.engine.phase ≠ .paused →
      text (call.perform host session).2.world = text session.world →
      Lasts host text start (readings ++ call.readings host session) (call.perform host session).2
  | edit {readings : List SyncOutcome} {session : Session σ} (world : σ) :
      Lasts host text start readings session → text world = text session.world →
      Lasts host text start readings { session with world := world }

open Engine

namespace Host.Answers

variable {σ : Type} {host : Host σ} {session : Session σ}

theorem ends_countError (answers : host.Answers) :
    (countError host).Ends session (fun _ _ => True) fun _ _ => False := by
  refine .bind (.modifyEngine (.bind (.engine ?_)))
  split
  · obtain ⟨told, tells⟩ :=
      answers.notify (.paused (session.engine.errorCount + 1)) session.world
    exact .bind (.modifyEngine (.answered tells trivial))
  · exact .pure trivial

theorem ends_running (answers : host.Answers) {direction : Direction}
    {task : Task σ SyncOutcome} {value : SyncOutcome → Prop}
    (runs : ∀ session, task.Ends session (fun outcome _ => value outcome)
      fun reason _ => value (.failed ⟨direction, reason⟩)) :
    (Task.during (.running direction) do
      let outcome ← counted host direction task
      Task.query host.drainEvents
      return outcome).Ends session (fun outcome _ => value outcome) fun _ _ => False := by
  refine .during (.bind (.recover ((runs _).mono (fun outcome after came => ?_) ?_)))
  · obtain ⟨drained, drains⟩ := answers.drainEvents after.world
    exact .bind (.answered drains (.pure came))
  · refine fun reason after came => .bind (answers.ends_countError.mono ?_ fun _ _ => id)
    intro _ counted _
    obtain ⟨drained, drains⟩ := answers.drainEvents counted.world
    exact .bind (.answered drains (.pure came))

theorem ends_toCode (answers : host.Answers) :
    (toCode host).Ends session (fun _ _ => True) fun _ _ => False := by
  refine .bind (.engine ?_)
  split
  · trivial
  · exact (answers.ends_running fun session => Task.Ends.trivial _ session)

end Host.Answers

namespace Host.Succeeds

variable {σ : Type} {host : Host σ} {text : σ → String} {session : Session σ} {code : String}
  {cursor : Selection}

theorem answers (succeeds : host.Succeeds text) : host.Answers where
  code world := by
    obtain ⟨after, asks, _⟩ := succeeds.code world
    exact ⟨text world, after, asks⟩
  cursor := succeeds.cursor
  notify := succeeds.notify
  drainEvents := succeeds.drainEvents

/-! ## What a reading comes to -/

theorem ends_writeBoard (succeeds : host.Succeeds text) (board : Storyboard) :
    (writeBoard host board code cursor).Ends session (fun _ _ => True) fun _ _ => False := by
  obtain ⟨written, writes⟩ := succeeds.applyBoard board session.world
  obtain ⟨refreshed, refreshes⟩ := succeeds.refresh written
  obtain ⟨selected, selects⟩ := succeeds.setCursor (cursor.clamp code.toList) refreshed
  exact .bind (.done writes (.bind (.done refreshes (.answered selects trivial))))

theorem attends_fallBack (succeeds : host.Succeeds text) (reason : ReadFailure) :
    (fallBack host code reason cursor).Ends session (fun outcome _ => outcome.Attends)
      fun _ _ => False := by
  obtain ⟨board, asked, asks⟩ := succeeds.board session.world
  refine .bind (.answered asks (.bind ?_))
  refine (succeeds.ends_writeBoard _).mono (fun _ written _ => .bind (.modifyEngine ?_)) fun _ _ => id
  obtain ⟨shown, seen, sees⟩ := succeeds.board written.world
  exact .bind (.answered sees (.bind (.modifyEngine (.pure trivial))))

theorem attends_showDocument (succeeds : host.Succeeds text) (document : Document) (started : Nat) :
    (showDocument host code document cursor started).Ends session (fun outcome _ => outcome.Attends)
      fun _ _ => False := by
  obtain ⟨board, asked, asks⟩ := succeeds.board session.world
  refine .bind (.answered asks (.bind ?_))
  refine (succeeds.ends_writeBoard _).mono (fun _ written _ => ?_) fun _ _ => id
  obtain ⟨shown, seen, sees⟩ := succeeds.board written.world
  exact .bind (.now (.bind (.modifyEngine (.bind (.answered sees (.bind (.modifyEngine rfl)))))))

theorem attends_syncBoard (succeeds : host.Succeeds text) :
    (syncBoard host code cursor).Ends session (fun outcome _ => outcome.Attends)
      fun _ _ => False := by
  apply syncBoard_ends
  · exact fun _ => succeeds.attends_fallBack _
  · intro _ read
    unfold judge judgeBy
    split
    · refine .bind (succeeds.answers.ends_countError.mono (fun _ _ _ => ?_) fun _ _ => id)
      exact succeeds.attends_fallBack _
    · split
      · split
        · exact succeeds.attends_showDocument _ _
        · exact succeeds.attends_fallBack _
      · exact .bind (.modifyEngine (succeeds.attends_fallBack _))

theorem attends_toBoard (succeeds : host.Succeeds text) (awake : session.engine.phase ≠ .paused) :
    (toBoard host).Ends session
      (fun outcome _ => outcome.Answers) fun _ _ => False := by
  refine .bind (.engine ?_)
  rw [if_neg awake]
  obtain ⟨asked, asks, _⟩ := succeeds.code session.world
  refine .bind (.answered asks (.bind (.engine ?_)))
  split
  · exact .inl trivial
  · refine .bind (.now ?_)
    split
    · exact .bind (.modifyEngine (.inr rfl))
    · obtain ⟨cursor, placed, places⟩ := succeeds.cursor asked
      refine .bind (.answered places (succeeds.answers.ends_running fun session => ?_))
      exact succeeds.attends_syncBoard.mono (fun _ _ => .inl) fun _ _ => False.elim

theorem attends_force (succeeds : host.Succeeds text) (awake : session.engine.phase ≠ .paused) :
    (force host .toBoard).Ends session
      (fun outcome _ => outcome.Answers) fun _ _ => False :=
  .bind (.modifyEngine (succeeds.attends_toBoard awake))

/-! ## What a call leaves of a text that is scheduled -/

theorem defers_toCode (succeeds : host.Succeeds text) :
    (toCode host).Ends session (fun _ after => session.Defers after) fun _ _ => False :=
  (succeeds.answers.ends_toCode.and (awaits_toCode session (awaits_self session.engine))).mono
    (fun _ _ both awake pending => (both.2.code_of_awake awake).symm ▸ pending)
    fun _ _ both => both.1

theorem defers_force (succeeds : host.Succeeds text) :
    (force host .toCode).Ends session (fun _ after => session.Defers after) fun _ _ => False :=
  .bind (.modifyEngine succeeds.defers_toCode)

theorem defers_request {direction : Direction} :
    (request host direction).Ends session (fun _ after => session.Defers after)
      fun _ _ => False := by
  refine .bind (.engine ?_)
  split
  · exact fun _ pending => pending
  · refine .bind (.now ?_)
    cases direction with
    | toBoard => exact .bind (.modifyEngine fun _ _ => rfl)
    | toCode => exact .bind (.modifyEngine fun _ pending => pending)

theorem begin_or_defers_poll (succeeds : host.Succeeds text)
    (awake : session.engine.phase ≠ .paused) :
    (poll host).Ends session
      (fun outcomes after => if Call.poll.reads host session then SyncOutcome.Begin outcomes
        else session.Defers after)
      fun _ _ => False := by
  rw [poll_eq]
  refine .bind (.now (.bind (.bind (takeDue_ends ?_))))
  by_cases due : (session.engine.codeDebounce.takeDue (host.now session.world)).1.isSome
  · rw [if_pos due]
    refine single_ends ((succeeds.attends_toBoard ?_).mono (fun reading read came => ?_)
      fun _ _ => id)
    · exact awake
    have reads : Call.poll.reads host session = true := due
    simp only [reads, if_true]
    refine .bind (runDue_ends (.bind (renewReport_ends fun _ => ?_)) ?_)
    · exact ⟨reading, [], rfl, came⟩
    · refine succeeds.answers.ends_toCode.mono
        (fun outcome _ _ => .bind (renewReport_ends fun _ => ?_)) fun _ _ => id
      exact ⟨reading, [outcome], rfl, came⟩
  · rw [if_neg due]
    have reads : Call.poll.reads host session = false := eq_false_of_ne_true due
    have early : (session.engine.codeDebounce.takeDue (host.now session.world)).2 =
        session.engine.codeDebounce := by
      unfold Timer.takeDue at *
      split at due
      · rfl
      · split at due <;> simp_all
    simp only [reads, Bool.false_eq_true, if_false]
    refine .pure (.bind (runDue_ends (.bind (renewReport_ends fun _ => ?_)) ?_))
    · exact fun _ pending => early.symm ▸ pending
    · refine succeeds.defers_toCode.mono (fun outcome _ defers => .bind (renewReport_ends ?_))
        fun _ _ => id
      exact fun _ awake pending => defers awake (early.symm ▸ pending)

theorem begins_single {task : Task σ SyncOutcome} {reads : Bool}
    (answers : task.Ends session (fun outcome _ => outcome.Answers) fun _ _ => False)
    (read : reads = true) :
    (single task).Ends session
      (fun outcomes after => if reads then SyncOutcome.Begin outcomes else session.Defers after)
      fun _ _ => False := by
  refine single_ends (answers.mono (fun outcome _ came => ?_) fun _ _ => id)
  rw [if_pos read]
  exact ⟨outcome, [], rfl, came⟩

theorem defers_single {task : Task σ SyncOutcome} {reads : Bool}
    (defers : task.Ends session (fun _ after => session.Defers after) fun _ _ => False)
    (left : reads = false) :
    (single task).Ends session
      (fun outcomes after => if reads then SyncOutcome.Begin outcomes else session.Defers after)
      fun _ _ => False := by
  refine single_ends (defers.mono (fun outcome _ came => ?_) fun _ _ => id)
  rw [if_neg (by simp [left])]
  exact came

theorem begin_or_defers_initial (succeeds : host.Succeeds text)
    (awake : session.engine.phase ≠ .paused) :
    (Call.initial.perform host).Ends session
      (fun outcomes after => if Call.initial.reads host session then SyncOutcome.Begin outcomes
        else session.Defers after)
      fun _ _ => False := by
  obtain ⟨asked, asks, _⟩ := succeeds.code session.world
  have reads : Call.initial.reads host session =
      !(Text.trim (text session.world).toList).isEmpty := by
    simp [Call.reads, asks, Except.toOption]
  by_cases blank : (Text.trim (text session.world).toList).isEmpty
  · refine defers_single (.bind (.now (.bind (.modifyEngine (.bind (.answered asks ?_))))))
      (by simp [reads, blank])
    rw [if_pos blank]
    exact succeeds.defers_force
  · refine begins_single (.bind (.now (.bind (.modifyEngine (.bind (.answered asks ?_))))))
      (by simp [reads, blank])
    rw [if_neg blank]
    exact succeeds.attends_force awake

theorem begin_or_defers (succeeds : host.Succeeds text) (awake : session.engine.phase ≠ .paused)
    (call : Call) :
    (call.perform host).Ends session
      (fun outcomes after => if call.reads host session then SyncOutcome.Begin outcomes
        else session.Defers after)
      fun _ _ => False := by
  cases call with
  | initial => exact succeeds.begin_or_defers_initial awake
  | event raised =>
    rw [Call.perform]
    obtain ⟨blur, same⟩ | ⟨other, same⟩ := handle_cases host raised
    · rw [same]
      exact begins_single (succeeds.attends_force awake) (by simp [Call.reads, blur])
    · have left : (Call.event raised).reads host session = false := by simp [Call.reads, other]
      obtain same | ⟨direction, same⟩ := same <;> rw [same]
      · exact defers_single succeeds.defers_force left
      · exact defers_single defers_request left
  | request direction => exact defers_single defers_request rfl
  | force direction =>
    cases direction with
    | toBoard => exact begins_single (succeeds.attends_force awake) rfl
    | toCode => exact defers_single succeeds.defers_force rfl
  | manual direction =>
    cases direction with
    | toBoard => exact begins_single (.bind (.modifyEngine (succeeds.attends_force awake))) rfl
    | toCode =>
      rw [Call.perform, manual_toCode]
      exact defers_single succeeds.defers_force rfl
  | poll => exact succeeds.begin_or_defers_poll awake
  | pause =>
    refine .bind (.modifyEngine fun paused => absurd ?_ paused)
    split <;> first | assumption | rfl
  | resume =>
    obtain ⟨told, tells⟩ := succeeds.notify .resumed session.world
    refine begins_single
      (.bind (.modifyEngine (.bind (.answered tells (succeeds.attends_force ?_))))) rfl
    simp [awake]

theorem readings_cases (succeeds : host.Succeeds text) (awake : session.engine.phase ≠ .paused)
    (call : Call) :
    (call.reads host session = true ∧
      ∃ reading, call.readings host session = [reading] ∧ reading.Answers) ∨
    (call.reads host session = false ∧ call.readings host session = [] ∧
      session.Defers (call.perform host session).2) := by
  obtain ⟨outcomes, came, holds⟩ := (succeeds.begin_or_defers awake call).ok
  unfold Call.readings
  split at holds
  · rename_i reads
    obtain ⟨reading, rest, same, answers⟩ := holds
    rw [if_pos reads, came, Call.outcomes, same]
    exact .inl ⟨reads, reading, rfl, answers⟩
  · rename_i left
    rw [if_neg left]
    exact .inr ⟨eq_false_of_ne_true left, rfl, holds⟩

theorem answered_of_lasts (succeeds : host.Succeeds text) {start last : Session σ}
    {readings : List SyncOutcome} (lasts : Lasts host text start readings last) :
    last.engine.phase ≠ .paused ∧
      (start.engine.codeDebounce.isPending = true →
        last.engine.codeDebounce.isPending = true ∨ readings ≠ []) ∧
      ∀ reading ∈ readings, reading.Answers := by
  induction lasts with
  | start awake => exact ⟨awake, .inl, nofun⟩
  | call call _ awake' _ ih =>
    obtain ⟨awake, scheduled, answers⟩ := ih
    refine ⟨awake', ?_⟩
    obtain ⟨_, reading, same, answered⟩ | ⟨_, none, defers⟩ := succeeds.readings_cases awake call
    · rw [same]
      refine ⟨fun _ => .inr (by simp), ?_⟩
      exact List.forall_mem_append.2 ⟨answers, List.forall_mem_singleton.2 answered⟩
    · rw [none, List.append_nil]
      exact ⟨fun pending => (scheduled pending).imp_left (defers awake'), answers⟩
  | edit world _ _ ih => exact ih

theorem announced (succeeds : host.Succeeds text) (awake : session.engine.phase ≠ .paused)
    {raised : Event} (announces : raised = .textInput ∨ raised = .textBlur) :
    ((Call.event raised).perform host session).2.engine.codeDebounce.isPending = true ∨
      (Call.event raised).readings host session ≠ [] := by
  obtain rfl | rfl := announces
  · left
    have schedules : (request host .toBoard).Ends session
        (fun _ after => after.engine.codeDebounce.isPending = true)
        fun _ after => after.engine.codeDebounce.isPending = true := by
      refine .bind (.engine ?_)
      rw [if_neg awake]
      exact .bind (.now (.bind (.modifyEngine rfl)))
    have same : ((Call.event .textInput).perform host session).2 =
        (request host .toBoard session).2 := snd_single _ _
    rw [same]
    exact schedules.after
  · right
    obtain ⟨_, reading, same, _⟩ | ⟨left, _⟩ := succeeds.readings_cases awake (.event .textBlur)
    · simp [same]
    · cases left

end Host.Succeeds

/-- Once it has been announced, a text is scheduled or has been attended to for as long as nobody
changes it and the engine is not paused, but for this: all readings of it may have been turned away
because they came too soon after an attempt at reading, and nothing be scheduled. -/
theorem Engine.attended_or_limited {σ : Type} {host : Host σ} {text : σ → String}
    (succeeds : host.Succeeds text) {session last : Session σ}
    (awake : session.engine.phase ≠ .paused) {raised : Event}
    (announces : raised = .textInput ∨ raised = .textBlur) {later : List SyncOutcome}
    (lasts : Lasts host text ((Call.event raised).perform host session).2 later last)
    (idle : last.engine.codeDebounce.isPending = false) :
    let readings := (Call.event raised).readings host session ++ later
    (∃ reading ∈ readings, reading.Attends) ∨
      readings ≠ [] ∧ ∀ reading ∈ readings, reading = .skipped .rateLimited := by
  intro readings
  obtain ⟨_, scheduled, answers_later⟩ := succeeds.answered_of_lasts lasts
  have answers : ∀ reading ∈ readings, reading.Answers := by
    refine List.forall_mem_append.2 ⟨?_, answers_later⟩
    obtain ⟨_, reading, same, answered⟩ | ⟨_, none, _⟩ :=
      succeeds.readings_cases awake (.event raised)
    · exact same ▸ List.forall_mem_singleton.2 answered
    · exact none ▸ nofun
  have read : readings ≠ [] := by
    obtain pending | first := succeeds.announced awake announces
    · exact List.append_ne_nil_of_right_ne_nil _
        ((scheduled pending).resolve_left (by simp [idle]))
    · exact List.append_ne_nil_of_left_ne_nil first _
  by_cases attended : ∃ reading ∈ readings, reading.Attends
  · exact .inl attended
  · refine .inr ⟨read, fun reading member => ?_⟩
    exact (answers reading member).resolve_left fun attends => attended ⟨reading, member, attends⟩

namespace Notepad

theorem succeeds_prompt : prompt.Succeeds (·.text) where
  code pad := ⟨pad, rfl, rfl⟩
  setCode _ _ := ⟨_, rfl⟩
  cursor pad := ⟨pad.selection, pad, rfl⟩
  setCursor _ _ := ⟨_, rfl⟩
  board pad := ⟨pad.board, pad, rfl⟩
  applyBoard _ _ := ⟨_, rfl⟩
  refresh pad := ⟨pad, rfl⟩
  notify _ pad := ⟨pad, rfl⟩
  drainEvents pad := ⟨pad, rfl⟩

def after (milliseconds : Nat) (session : Session Notepad) : Session Notepad :=
  { session with
    world := { session.world with time := session.world.time + milliseconds * Config.nanosPerMilli } }

def retyped (text : String) (session : Session Notepad) : Session Notepad :=
  { session with world := { session.world with text := text } }

end Notepad

open Notepad in
theorem Engine.attended_or_limited_polled :
    let typed := opened .default "A -> B : hi"
    let announced := ((Call.event .textInput).perform prompt typed).2
    let polled := Call.poll.perform prompt (after 300 announced)
    polled.1.toOption = some [.applied .toBoard 0] ∧
      polled.2.engine.codeDebounce.isPending = false ∧
      ∃ reading ∈ Call.poll.readings prompt (after 300 announced), reading.Attends := by
  intro typed announced polled
  have applied : polled.1.toOption = some [.applied .toBoard 0] := by decide +kernel
  have idle : polled.2.engine.codeDebounce.isPending = false := by decide +kernel
  have lasts : Lasts prompt (·.text) announced
      ([] ++ Call.poll.readings prompt (after 300 announced)) polled.2 :=
    .call .poll (.edit _ (.start (by decide +kernel)) rfl) (by decide +kernel) (by decide +kernel)
  refine ⟨applied, idle, ?_⟩
  have ends := attended_or_limited succeeds_prompt (by decide) (.inl rfl) lasts idle
  have first : (Call.event .textInput).readings prompt typed = [] := by decide +kernel
  have second : Call.poll.readings prompt (after 300 announced) = [.applied .toBoard 0] := by
    decide +kernel
  rw [first, List.nil_append, List.nil_append] at ends
  refine ends.resolve_right fun limited => ?_
  rw [second] at limited
  cases limited.2 _ List.mem_cons_self

open Notepad in
/-- A text that is announced too soon after another one was read: it is turned away, and nothing is
scheduled. -/
theorem Engine.attended_or_limited_lost :
    let read := ((Call.force .toBoard).perform prompt (opened .default "A -> B : one")).2
    let typed := retyped "A -> B : two" (after 50 read)
    let announced := (Call.event .textBlur).perform prompt typed
    prompt.Succeeds (·.text) ∧
      Reaches prompt (fun _ => True) (fun _ _ => True) (opened .default "A -> B : one")
        [.applied .toBoard 0] typed ∧
      typed.engine.phase ≠ .paused ∧ Lasts prompt (·.text) announced.2 [] announced.2 ∧
      announced.2.engine.codeDebounce.isPending = false ∧
      (Call.event .textBlur).readings prompt typed = [.skipped .rateLimited] ∧
      announced.2.world.text = "A -> B : two" ∧
      announced.2.world.board.actions = [.message "A" "B" "one"] := by
  intro read typed announced
  have reached : Reaches prompt (fun _ => True) (fun _ _ => True) (opened .default "A -> B : one")
      ([] ++ Call.outcomes ((Call.force .toBoard).perform prompt (opened .default "A -> B : one")).1)
      typed :=
    .edit _ (.edit _ (.call (.force .toBoard) .start trivial) trivial) trivial
  have past : [] ++ Call.outcomes
      ((Call.force .toBoard).perform prompt (opened .default "A -> B : one")).1 =
        [.applied .toBoard 0] := by decide +kernel
  rw [past] at reached
  refine ⟨succeeds_prompt, reached, by decide +kernel, .start (by decide +kernel), ?_⟩
  refine ⟨by decide +kernel, by decide +kernel, by decide +kernel, by decide +kernel⟩

end Lifeline
