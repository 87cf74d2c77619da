import Lifeline.Proofs.Sync.Run
import Lifeline.Proofs.Sync.Shown

/-! What an engine remembers of the text, while nobody but the engine changes the storyboard.

A remembered text is the one that the storyboard shows, with one exception: the text that is turned
away after too many readings is shown line by line, but the one before it stays remembered. -/

set_option autoImplicit false

namespace Lifeline

def Storyboard.projection (board : Storyboard) : Projection :=
  ⟨board.actors, board.actions, board.title⟩

theorem projection_onto (projection : Projection) (board : Storyboard) :
    (projection.onto board).projection = projection := rfl

def Projection.ofText (maxLines : Nat) (text : String) : Projection :=
  let source := (repair text maxLines).code
  if (analyze source).issues = [] then (Document.ofSource source).project
  else (extract text).document.project

def Host.ReadsInTime {σ : Type} (host : Host σ) (config : Config) : Prop :=
  ∀ source world, (host.analyze source world).1 = .ok (Lifeline.analyze source) ∧
    host.now (host.analyze source world).2 < host.now world + config.parseTimeout

namespace SyncOutcome

/-- Whether the storyboard was last written for a text that was turned away unread, after an outcome
and given how it was before. -/
def overrunAfter (before : Bool) : SyncOutcome → Bool
  | .applied .toBoard _ => false
  | .fallback reason _ _ => reason = .attemptsExceeded
  | _ => before

/-- Whether the storyboard was last written for a text that was turned away unread. -/
def overrun (past : List SyncOutcome) : Bool := past.foldl overrunAfter false

end SyncOutcome

/-- Calls that are only about what the text says. -/
def Call.Textual : Call → Prop
  | .event raised => raised = .textInput ∨ raised = .textBlur
  | .request direction | .force direction => direction = .toBoard
  | .poll => True
  | _ => False

def KeepsBoard {σ : Type} (held : σ → Contents) (before after : σ) : Prop :=
  (held after).board = (held before).board

/-- What a storyboard shows while a text is remembered. -/
def Reflects (maxLines : Nat) (overran : Bool) (text : String) (board : Storyboard) : Prop :=
  if overran then
    ∃ other, other ≠ text ∧ board.projection = (extract other).document.project
  else board.projection = .ofText maxLines text

theorem Reflects.shown {maxLines : Nat} {text : String} {board : Storyboard}
    (shows : board.projection = .ofText maxLines text) : Reflects maxLines false text board := by
  simpa [Reflects] using shows

theorem Reflects.overrun {maxLines : Nat} {text other : String} {board : Storyboard}
    (differs : other ≠ text) (shows : board.projection = (extract other).document.project) :
    Reflects maxLines true text board := by
  simpa [Reflects] using ⟨other, differs, shows⟩

/-- What holds of a session in which only the engine changes the storyboard. -/
structure Remembers {σ : Type} (held : σ → Contents) (config : Config) (overran : Bool)
    (session : Session σ) : Prop where
  config_eq : session.engine.config = config
  quiet : session.engine.boardDebounce.isPending = false
  reflects : ∀ text, session.engine.syncedCode = some text →
    Reflects config.maxLines overran text (held session.world).board

structure Recalls {σ : Type} (held : σ → Contents) (config : Config) (overran : Bool)
    (outcomes : List SyncOutcome) (after : Session σ) : Prop where
  remembers : Remembers held config (outcomes.foldl SyncOutcome.overrunAfter overran) after
  unchanged : .unchanged ∈ outcomes →
    outcomes = [.unchanged] ∧ after.engine.syncedCode = some (held after.world).text

section

variable {σ : Type} {host : Host σ} {held : σ → Contents} {config : Config} {overran : Bool}
  {session : Session σ}

theorem ofText_of_shows {engine : Engine} {text : String} {world : σ} {document : Document}
    (timely : host.ReadsInTime engine.config)
    (shows : (Reading.of host engine text world).Shows document) :
    Projection.ofText engine.config.maxLines text = document.project := by
  obtain ⟨_, _, analysis, result, present, clean⟩ := shows
  have read := (timely (repair text engine.config.maxLines).code world).1
  cases result.symm.trans read
  rw [document_analyze] at present
  cases present
  exact if_pos clean

theorem misses_of_timely {engine : Engine} {text : String} {world : σ} {reason : ReadFailure}
    (timely : host.ReadsInTime engine.config)
    (misses : (Reading.of host engine text world).Misses reason)
    (tried : reason ≠ .attemptsExceeded) :
    Projection.ofText engine.config.maxLines text = (extract text).document.project := by
  obtain ⟨read, inTime⟩ := timely (repair text engine.config.maxLines).code world
  cases misses with
  | refused => exact absurd rfl tried
  | broken _ result => cases result.symm.trans read
  | late _ _ late => exact absurd inTime (Nat.not_lt.2 late)
  | invalid _ result _ unfit =>
    cases result.symm.trans read
    refine if_neg fun clean => ?_
    exact unfit.elim (fun none => by cases none) (absurd clean)

theorem recalls_toBoard (stores : host.Stores held) (timely : host.ReadsInTime config)
    (remembers : Remembers held config overran session) :
    (Engine.toBoard host).Ends session
      (fun outcome after => Recalls held config overran [outcome] after) fun _ _ => False := by
  obtain ⟨rfl, quiet, reflects⟩ := remembers
  refine stores.ends_toBoard (fun _ => ?_) (fun known world same => ?_)
    (fun _ _ _ metrics world same => ?_) fun other cursor world _ same => ?_
  · exact ⟨⟨rfl, quiet, reflects⟩, nofun⟩
  · rw [← same] at reflects known
    exact ⟨⟨rfl, quiet, reflects⟩, fun _ => ⟨rfl, known⟩⟩
  · rw [← same] at reflects
    exact ⟨⟨rfl, quiet, reflects⟩, nofun⟩
  · refine stores.ends_syncBoard ?_ ?_
    · intro document shows engine shown duration carries holds phase drained kept
      refine ⟨⟨carries.config, carries.boardDebounce quiet, fun text known => ?_⟩, nofun⟩
      cases known
      rw [kept, holds]
      exact .shown ((projection_onto _ _).trans (ofText_of_shows timely shows).symm)
    · intro reason misses engine shown carries holds phase drained kept
      refine ⟨⟨carries.config, carries.boardDebounce quiet, fun text known => ?_⟩, nofun⟩
      change Reflects _ (decide (reason = .attemptsExceeded)) _ _
      rw [kept, holds]
      by_cases spent : reason = .attemptsExceeded
      · -- The text before stays remembered, and it is another one.
        have before : session.engine.syncedCode = some text := by
          rw [← carries.syncedCode]
          exact (if_pos spent).symm.trans known
        have differs : (held session.world).text ≠ text := fun equal =>
          other (before.trans (congrArg some equal.symm))
        rw [decide_eq_true spent]
        exact .overrun differs (projection_onto _ _)
      · have current : some (held session.world).text = some text :=
          (if_neg spent).symm.trans known
        cases current
        rw [decide_eq_false spent]
        exact .shown ((projection_onto _ _).trans (misses_of_timely timely misses spent).symm)

theorem recalls_force (stores : host.Stores held) (timely : host.ReadsInTime config)
    (remembers : Remembers held config overran session) :
    (Engine.force host .toBoard).Ends session
      (fun outcome after => Recalls held config overran [outcome] after) fun _ _ => False :=
  .bind (.modifyEngine (recalls_toBoard stores timely
    ⟨remembers.config_eq, remembers.quiet, remembers.reflects⟩))

theorem recalls_request (remembers : Remembers held config overran session) :
    (Engine.request host .toBoard).Ends session
      (fun outcome after => Recalls held config overran [outcome] after) fun _ _ => False := by
  obtain ⟨config_eq, quiet, reflects⟩ := remembers
  refine .bind (.engine ?_)
  split
  · exact ⟨⟨config_eq, quiet, reflects⟩, nofun⟩
  · exact .bind (.now (.bind (.modifyEngine (.pure ⟨⟨config_eq, quiet, reflects⟩, nofun⟩))))

theorem recalls_poll (stores : host.Stores held) (timely : host.ReadsInTime config)
    (remembers : Remembers held config overran session) :
    (Engine.poll host).Ends session (Recalls held config overran) fun _ _ => False := by
  have finishes (now : Nat) {first : List SyncOutcome} {after : Session σ}
      (recalls : Recalls held config overran first after) :
      (do
        let second ←
          Engine.runDue Engine.boardDebounce ({ · with boardDebounce := · }) now (Engine.toCode host)
        Engine.renewReport now
        return first ++ second).Ends after (Recalls held config overran) fun _ _ => False := by
    obtain ⟨⟨config_eq, quiet, reflects⟩, unchanged⟩ := recalls
    refine .bind (Engine.runDue_ends_of_idle quiet (.bind (Engine.renewReport_ends fun timer => ?_)))
    rw [List.append_nil]
    exact ⟨⟨config_eq, Timer.isPending_takeDue quiet, reflects⟩, unchanged⟩
  obtain ⟨config_eq, quiet, reflects⟩ := remembers
  rw [Engine.poll_eq]
  refine .bind (.now (.bind (Engine.runDue_ends (finishes _ ?_) ?_)))
  · exact ⟨⟨config_eq, quiet, reflects⟩, nofun⟩
  · refine (recalls_toBoard stores timely ?_).mono (fun _ _ => finishes _) fun _ _ => id
    exact ⟨config_eq, quiet, reflects⟩

theorem recalls_perform {call : Call} (stores : host.Stores held) (timely : host.ReadsInTime config)
    (remembers : Remembers held config overran session) (textual : call.Textual) :
    (call.perform host).Ends session (Recalls held config overran) fun _ _ => False := by
  cases call with
  | event raised =>
    rcases textual with rfl | rfl
    · exact Engine.single_ends (recalls_request remembers)
    · exact Engine.single_ends (recalls_force stores timely remembers)
  | request direction =>
    cases textual
    exact Engine.single_ends (recalls_request remembers)
  | force direction =>
    cases textual
    exact Engine.single_ends (recalls_force stores timely remembers)
  | poll => exact recalls_poll stores timely remembers
  | initial | manual | pause | resume => exact textual.elim

theorem remembers_of_reaches (stores : host.Stores held) (timely : host.ReadsInTime config)
    {world : σ} {past : List SyncOutcome}
    (reached : Reaches host Call.Textual (KeepsBoard held) ⟨.new config, world⟩ past session) :
    Remembers held config (SyncOutcome.overrun past) session := by
  refine reached.keeps (fun past => Remembers held config (SyncOutcome.overrun past))
    ⟨rfl, rfl, nofun⟩ (fun past session call textual remembers => ?_)
    fun past session world kept remembers => ?_
  · refine (recalls_perform stores timely remembers textual).mono (fun outcomes after recalls => ?_)
      fun _ _ => False.elim
    rw [SyncOutcome.overrun, List.foldl_append]
    exact recalls.remembers
  · refine ⟨remembers.config_eq, remembers.quiet, fun text known => ?_⟩
    rw [show (held world).board = (held session.world).board from kept]
    exact remembers.reflects text known

/-- As long as only the engine changes the storyboard and all calls are about the text, a text that a
synchronization finds unchanged is the one that the storyboard shows, unless the storyboard was last
written for a text that was turned away unread. Then it shows the lines of that text, which is
another one. -/
theorem Engine.unchanged_reflects (stores : host.Stores held) (timely : host.ReadsInTime config)
    {world : σ} {past : List SyncOutcome}
    (reached : Reaches host Call.Textual (KeepsBoard held) ⟨.new config, world⟩ past session)
    {call : Call} (textual : call.Textual) :
    (call.perform host).Ends session
      (fun outcomes after => .unchanged ∈ outcomes →
        let shown := held after.world
        if SyncOutcome.overrun past then
          ∃ other, other ≠ shown.text ∧
            shown.board.projection = (extract other).document.project
        else shown.board.projection = .ofText config.maxLines shown.text)
      fun _ _ => False := by
  have remembers := remembers_of_reaches stores timely reached
  refine (recalls_perform stores timely remembers textual).mono ?_ fun _ _ => id
  intro outcomes after recalls found
  obtain ⟨rfl, known⟩ := recalls.unchanged found
  exact recalls.remembers.reflects _ known

end

namespace Notepad

def prompt : Host Notepad := host (analyzeFor 0)

theorem stores_prompt : prompt.Stores held := stores_host fun _ _ => rfl

theorem readsInTime_prompt {config : Config} (limit : 0 < config.parseTimeout) :
    prompt.ReadsInTime config := fun _ _ => ⟨rfl, Nat.add_lt_add_left limit _⟩

def type (run : List SyncOutcome × Session Notepad) (text : String) :
    List SyncOutcome × Session Notepad :=
  let world := { run.2.world with text := text, time := run.2.world.time + 1000000000 }
  let ended := (Call.force .toBoard).perform prompt { run.2 with world := world }
  (run.1 ++ Call.outcomes ended.1, ended.2)

def typed (texts : List String) : List SyncOutcome × Session Notepad :=
  texts.foldl type ([], opened .default "")

theorem reaches_foldl_type {start : Session Notepad} {run : List SyncOutcome × Session Notepad}
    (reached : Reaches prompt Call.Textual (KeepsBoard held) start run.1 run.2)
    (texts : List String) :
    Reaches prompt Call.Textual (KeepsBoard held) start (texts.foldl type run).1
      (texts.foldl type run).2 := by
  induction texts generalizing run with
  | nil => exact reached
  | cons text rest ih => exact ih (.call (.force .toBoard) (.edit _ reached rfl) rfl)

theorem reaches_typed (texts : List String) :
    Reaches prompt Call.Textual (KeepsBoard held) (opened .default "") (typed texts).1
      (typed texts).2 :=
  reaches_foldl_type .start texts

end Notepad

open Notepad in
theorem Engine.unchanged_reflects_twice :
    let ended := (Call.force .toBoard).perform prompt (typed ["A -> B : hi"]).2
    ended.1.toOption = some [.unchanged] ∧
      ended.2.world.board.projection = .ofText Config.default.maxLines ended.2.world.text := by
  have textual : (Call.force .toBoard).Textual := rfl
  have ends := unchanged_reflects stores_prompt (readsInTime_prompt (by decide))
    (reaches_typed ["A -> B : hi"]) textual
  obtain ⟨outcomes, came, shows⟩ := ends.ok
  have found : ((Call.force .toBoard).perform prompt (typed ["A -> B : hi"]).2).1.toOption =
      some [.unchanged] := by decide +kernel
  have kept : SyncOutcome.overrun (typed ["A -> B : hi"]).1 = false := by decide +kernel
  refine ⟨found, ?_⟩
  rw [came] at found
  cases found
  rw [kept] at shows
  exact shows List.mem_cons_self

open Notepad in
/-- The storyboard is out of date after three readings that fail, one that is turned away, and a
return to the text before. -/
theorem Engine.unchanged_reflects_overrun :
    let run := typed ["A -> : one", "A -> : two", "A -> : three", "A -> B : hi", "A -> : three"]
    prompt.Stores held ∧ prompt.ReadsInTime .default ∧
      Reaches prompt Call.Textual (KeepsBoard held) (opened .default "") run.1 run.2 ∧
      run.1.getLast? = some .unchanged ∧
      run.2.world.board.projection ≠ .ofText Config.default.maxLines run.2.world.text := by
  intro run
  refine ⟨stores_prompt, readsInTime_prompt (by decide), reaches_typed _, ?_, ?_⟩
  · decide +kernel
  · decide +kernel

end Lifeline
