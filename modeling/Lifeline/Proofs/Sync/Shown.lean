import Lifeline.Proofs.Source.Extract
import Lifeline.Proofs.Sync.Notepad

/-! What a synchronization shows: a text that has been read well and in time, or else its lines. -/

set_option autoImplicit false

namespace Lifeline

/-- One reading of a text as an engine sees it. Times are in nanoseconds. -/
structure Reading where
  left : Nat
  result : Except Breakdown Analysis
  started : Nat
  finished : Nat
  limit : Nat

namespace Reading

def of {σ : Type} (host : Host σ) (engine : Engine) (text : String) (world : σ) : Reading :=
  let read := host.analyze (repair text engine.config.maxLines).code world
  { left := engine.config.maxParseAttempts - engine.parseAttempts
    result := read.1
    started := host.now world
    finished := host.now read.2
    limit := engine.config.parseTimeout }

variable {reading : Reading}

/-- Whether a reading gives a document that may be shown. -/
structure Shows (reading : Reading) (document : Document) : Prop where
  tried : 0 < reading.left
  inTime : reading.finished < reading.started + reading.limit
  clean : ∃ analysis, reading.result = .ok analysis ∧ analysis.document = some document ∧
    analysis.issues = []

/-- Whether a reading gives nothing that may be shown, for some reason. -/
inductive Misses (reading : Reading) : ReadFailure → Prop where
  | refused : reading.left = 0 → reading.Misses .attemptsExceeded
  | broken {breakdown : Breakdown} : 0 < reading.left → reading.result = .error breakdown →
      reading.Misses (.broken breakdown)
  | late {analysis : Analysis} : 0 < reading.left → reading.result = .ok analysis →
      reading.started + reading.limit ≤ reading.finished →
      reading.Misses (.timeout (reading.finished - reading.started))
  | invalid {analysis : Analysis} : 0 < reading.left → reading.result = .ok analysis →
      reading.finished < reading.started + reading.limit →
      analysis.document = none ∨ analysis.issues ≠ [] →
      reading.Misses (.invalid (max analysis.issues.length 1))

theorem Shows.unique {first second : Document} (shows : reading.Shows first)
    (shows' : reading.Shows second) : first = second := by
  obtain ⟨_, _, analysis, result, present, _⟩ := shows
  obtain ⟨_, _, other, result', present', _⟩ := shows'
  cases result.symm.trans result'
  exact Option.some.inj (present.symm.trans present')

theorem Shows.not_misses {document : Document} (shows : reading.Shows document)
    {reason : ReadFailure} : ¬ reading.Misses reason := by
  obtain ⟨tried, inTime, analysis, result, present, clean⟩ := shows
  rintro (refused | ⟨_, broken⟩ | ⟨_, _, late⟩ | ⟨_, other, _, invalid⟩)
  · omega
  · cases result.symm.trans broken
  · omega
  · cases result.symm.trans other
    exact invalid.elim (fun none => by simp [present] at none) (absurd clean)

end Reading

namespace Engine

/-- What a synchronization says where it has reason to do nothing, asked for a text at some time. -/
inductive Declines (engine : Engine) (text : String) (now : Nat) : SyncOutcome → Prop where
  | paused : engine.phase = .paused → engine.Declines text now (.skipped .paused)
  | early {last : Nat} : engine.lastParseAt = some last →
      now - last < engine.config.minParseInterval →
      engine.Declines text now (.skipped .rateLimited)
  | unchanged : engine.syncedCode = some text → engine.Declines text now .unchanged

structure Carries (first second : Engine) : Prop where
  config : second.config = first.config
  syncedCode : second.syncedCode = first.syncedCode
  document : second.document = first.document
  boardDebounce : first.boardDebounce.isPending = false → second.boardDebounce.isPending = false

theorem Carries.refl (engine : Engine) : engine.Carries engine := ⟨rfl, rfl, rfl, id⟩

theorem Carries.charged {first second : Engine} (carries : first.Carries second) :
    first.Carries second.charged := by
  obtain ⟨config, syncedCode, document, boardDebounce⟩ := carries
  unfold Engine.charged
  dsimp only
  split
  · exact ⟨config, syncedCode, document, fun _ => Timer.isPending_cancel _⟩
  · exact ⟨config, syncedCode, document, boardDebounce⟩

end Engine

open Engine

namespace Host.Stores

variable {σ : Type} {host : Host σ} {held : σ → Contents} {session : Session σ} {code : String}
  {cursor : Selection} {value : SyncOutcome → Session σ → Prop} {fault : Fault → Session σ → Prop}

theorem ends_judge (stores : host.Stores held) (reading : Reading) (tried : 0 < reading.left)
    (shown : ∀ document, reading.Shows document → ∀ world duration,
      held world = { held session.world with
        board := document.project.onto (held session.world).board } →
      value (.applied .toBoard duration)
        ⟨session.engine.showed code document (held world).board duration, world⟩)
    (missed : ∀ reason, reading.Misses reason → ∀ engine world, session.engine.Carries engine →
      held world = { held session.world with
        board := (extract code).document.project.onto (held session.world).board } →
      value (.fallback reason (extract code).actors.names.length (extract code).messages.length)
        ⟨engine.fellBack code reason (held world).board, world⟩) :
    (judge host code cursor reading.started reading.finished
      (decide (reading.finished < reading.started + reading.limit)) reading.result).Ends session
      value fault := by
  unfold judge judgeBy
  split
  · rename_i broken
    refine .bind (stores.ends_countError fun told holds_told => stores.ends_fallBack ?_)
    exact fun world holds => missed _ (.broken tried broken) _ world
      (Carries.refl _).charged (by rw [holds, holds_told])
  · rename_i analysis came
    split
    · rename_i inTime
      have inTime := of_decide_eq_true inTime
      split
      · rename_i document present clean
        exact stores.ends_showDocument (shown document ⟨tried, inTime, analysis, came, present, clean⟩)
      · rename_i unfit
        refine stores.ends_fallBack fun world holds => missed _ ?_ _ world (Carries.refl _) holds
        refine .invalid tried came inTime ?_
        cases found : analysis.document with
        | none => exact .inl rfl
        | some document => exact .inr (unfit document found)
    · rename_i late
      refine .bind (.modifyEngine (stores.ends_fallBack fun world holds => ?_))
      refine missed _ (.late tried came ?_) _ world ⟨rfl, rfl, rfl, id⟩ holds
      exact Nat.le_of_not_lt fun inTime => late (decide_eq_true inTime)

theorem ends_syncBoard (stores : host.Stores held)
    (shown : ∀ document, (Reading.of host session.engine code session.world).Shows document →
      ∀ engine world duration, session.engine.Carries engine →
        held world = { held session.world with
          board := document.project.onto (held session.world).board } →
        value (.applied .toBoard duration)
          ⟨engine.showed code document (held world).board duration, world⟩)
    (missed : ∀ reason, (Reading.of host session.engine code session.world).Misses reason →
      ∀ engine world, session.engine.Carries engine →
        held world = { held session.world with
          board := (extract code).document.project.onto (held session.world).board } →
        value (.fallback reason (extract code).actors.names.length (extract code).messages.length)
          ⟨engine.fellBack code reason (held world).board, world⟩) :
    (syncBoard host code cursor).Ends session value fault := by
  apply syncBoard_ends
  · intro spent
    refine stores.ends_fallBack fun world holds => missed _ (.refused ?_) _ world ?_ holds
    · exact Nat.sub_eq_zero_of_le spent
    · exact ⟨rfl, rfl, rfl, id⟩
  · intro left read
    have same : held read.2 = held session.world := stores.analyze _ _
    have tried : 0 < (Reading.of host session.engine code session.world).left :=
      Nat.sub_pos_of_lt left
    refine stores.ends_judge (.of host session.engine code session.world) tried ?_ ?_
    · intro document shows world duration holds
      rw [same] at holds
      exact shown document shows _ world duration ⟨rfl, rfl, rfl, id⟩ holds
    · intro reason misses engine world carries holds
      rw [same] at holds
      exact missed reason misses engine world ⟨carries.config, carries.syncedCode, carries.document,
        carries.boardDebounce⟩ holds

end Host.Stores

/-- A synchronization of the storyboard that has no reason to do nothing shows the document of a text
that has been read well and in time, and only that. For any other text it shows exactly the actors and
messages that the lines hold, says how many there are and why, and keeps the document that it had.
Nothing else that the host holds changes. -/
theorem Engine.toBoard_shows {σ : Type} {host : Host σ} {held : σ → Contents}
    (stores : host.Stores held) (session : Session σ) :
    let before := held session.world
    let asked := (host.code session.world).2
    let reading := Reading.of host session.engine before.text (host.cursor asked).2
    (toBoard host).Ends session
      (fun outcome after =>
        session.engine.Declines before.text (host.now asked) outcome ∧ held after.world = before ∧
          after.engine.document = session.engine.document ∨
        (outcome.isApplied = true ↔ ∃ document, reading.Shows document) ∧
        (∀ document, reading.Shows document →
          held after.world = { before with board := document.project.onto before.board } ∧
          after.engine.document = some document) ∧
        ((¬ ∃ document, reading.Shows document) →
          ∃ reason, reading.Misses reason ∧
            outcome = .fallback reason (extract before.text).actors.names.length
              (extract before.text).messages.length ∧
            held after.world = { before with
              board :=
                { actors := (extract before.text).actors
                  actions := (extract before.text).messages.map fun message =>
                    .message message.source message.target message.text
                  mode := before.board.mode
                  title := none } } ∧
            after.engine.document = session.engine.document))
      fun _ _ => False := by
  intro before asked reading
  refine stores.ends_toBoard (fun paused => ?_) (fun known world same => ?_)
    (fun last present soon metrics world same => ?_) fun _ cursor world asks holds => ?_
  · exact .inl ⟨.paused paused, rfl, rfl⟩
  · exact .inl ⟨.unchanged known, same, rfl⟩
  · exact .inl ⟨.early present soon, same, rfl⟩
  have same : Reading.of host { session.engine with phase := .running .toBoard } before.text world =
      reading := by
    simp only [reading, asked, asks]
    rfl
  refine stores.ends_syncBoard ?_ ?_
  · rw [same]
    intro document shows engine shown duration _ holds_shown phase drained holds_drained
    refine .inr ⟨⟨fun _ => ⟨document, shows⟩, fun _ => rfl⟩, ?_, ?_⟩
    · intro other shows'
      rw [shows'.unique shows, holds_drained, holds_shown, holds]
      exact ⟨rfl, rfl⟩
    · exact fun none => absurd ⟨document, shows⟩ none
  · rw [same]
    intro reason misses engine shown carries holds_shown phase drained holds_drained
    refine .inr ⟨⟨nofun, ?_⟩, ?_, fun _ => ⟨reason, misses, rfl, ?_, carries.document⟩⟩
    · rintro ⟨document, shows⟩
      exact absurd misses shows.not_misses
    · exact fun document shows => absurd misses shows.not_misses
    · rw [holds_drained, holds_shown, holds, Extracted.project_document_extract]
      rfl

open Notepad in
/-- A good text that takes too long to read is shown line by line. -/
theorem Engine.toBoard_shows_late :
    let slow := host (analyzeFor 6000000000)
    let session := opened .default "A -> B : hi"
    (toBoard slow session).1.toOption = some (.fallback (.timeout 6000000000) 2 1) ∧
      (Reading.of slow session.engine "A -> B : hi" session.world).Misses (.timeout 6000000000) ∧
      (toBoard slow session).2.world.board.actions = [.message "A" "B" "hi"] := by
  have ran : (toBoard (host (analyzeFor 6000000000)) (opened .default "A -> B : hi")).1.toOption =
      some (.fallback (.timeout 6000000000) 2 1) := by decide +kernel
  have actions : (extract "A -> B : hi").shown.actions = [.message "A" "B" "hi"] := by
    decide +kernel
  have stores : (host (analyzeFor 6000000000)).Stores held := stores_host fun _ _ => rfl
  obtain ⟨outcome, came, holds⟩ := (toBoard_shows stores (opened .default "A -> B : hi")).ok
  rw [came] at ran
  cases ran
  obtain ⟨declines, _⟩ | ⟨applied, _, missed⟩ := holds
  · cases declines
  · obtain ⟨reason, misses, same, shows, _⟩ := missed fun shows =>
      Bool.false_ne_true (applied.2 shows)
    cases same
    refine ⟨by rw [came]; rfl, misses, ?_⟩
    exact (congrArg (·.board.actions) shows).trans actions

end Lifeline
