import Lifeline.Proofs.Storyboard.Board

/-! Free text does not change what a storyboard's text shows, as long as it keeps to its place.

Two storyboards that differ in free text only have texts that show actions of the same shape, if no
free text ends the line, the note or the diagram that it stands in. Without that it can: a condition
with a keyword of the language in it, a note with a line that ends it and a text with the mark that
ends the diagram are read in another way. -/

set_option autoImplicit false

namespace Lifeline

open Render (Placement mentions mentionsAll mentionsBranches)

/-! ## Shapes -/

def shapeWords : Rewording := ⟨id, id, fun _ => "", fun _ => "", []⟩

def shapeOf (actions : List Action) : List Action := rewordAll shapeWords actions

mutual

theorem mentions_shape : (action : Action) → mentions (action.reword shapeWords) = mentions action
  | .message .. | .activation _ | .deactivation _ | .note .. | .par [] => rfl
  | .alt _ whenTrue whenFalse _ => by
    rw [Action.reword, mentions, mentions, mentionsAll_shape whenTrue, mentionsAll_shape whenFalse]
  | .loop _ actions => by rw [Action.reword, mentions, mentions, mentionsAll_shape actions]
  | .opt _ actions => by rw [Action.reword, mentions, mentions, mentionsAll_shape actions]
  | .par (branch :: rest) => by
    rw [Action.reword, mentions, mentions, mentionsBranches, mentionsBranches,
      mentionsAll_shape branch, mentionsBranches_shape rest]

theorem mentionsAll_shape : (actions : List Action) →
    mentionsAll (rewordAll shapeWords actions) = mentionsAll actions
  | [] => rfl
  | action :: rest => by
    rw [rewordAll, mentionsAll, mentionsAll, mentions_shape action, mentionsAll_shape rest]

theorem mentionsBranches_shape : (branches : List (List Action)) →
    mentionsBranches (rewordBranches shapeWords branches) = mentionsBranches branches
  | [] => rfl
  | branch :: rest => by
    rw [rewordBranches, mentionsBranches, mentionsBranches, mentionsAll_shape branch,
      mentionsBranches_shape rest]

end

/-! ## Names that are mentioned -/

section

variable {step : Action} {name : String}

mutual

theorem mem_mentions (inside : name ∈ mentions step) : (action : Action) → step ∈ action.steps →
    name ∈ mentions action
  | .message .., member | .activation _, member | .deactivation _, member | .note .., member => by
    rwa [List.mem_singleton.1 member] at inside
  | .alt condition whenTrue whenFalse otherwise, member => by
    rcases List.mem_cons.1 member with rfl | member
    · exact inside
    · rw [mentions, List.mem_append]
      exact (List.mem_append.1 member).imp (mem_mentionsAll inside whenTrue)
        (mem_mentionsAll inside whenFalse)
  | .loop condition actions, member => by
    rcases List.mem_cons.1 member with rfl | member
    · exact inside
    · exact mem_mentionsAll inside actions member
  | .opt condition actions, member => by
    rcases List.mem_cons.1 member with rfl | member
    · exact inside
    · exact mem_mentionsAll inside actions member
  | .par branches, member => by
    rcases List.mem_cons.1 member with rfl | member
    · exact inside
    · exact mem_mentionsBranches inside branches member

theorem mem_mentionsAll (inside : name ∈ mentions step) : (actions : List Action) →
    step ∈ stepsOf actions → name ∈ mentionsAll actions
  | [], member => by cases member
  | action :: rest, member => by
    rw [mentionsAll, List.mem_append]
    exact (List.mem_append.1 member).imp (mem_mentions inside action) (mem_mentionsAll inside rest)

theorem mem_mentionsBranches (inside : name ∈ mentions step) : (branches : List (List Action)) →
    step ∈ stepsOfBranches branches → name ∈ mentionsBranches branches
  | [], member => by cases member
  | branch :: rest, member => by
    rw [mentionsBranches, List.mem_append]
    exact (List.mem_append.1 member).imp (mem_mentionsAll inside branch)
      (mem_mentionsBranches inside rest)

end

end

/-! ## Storyboards that keep to their lines -/

def Action.Placed : Action → Prop
  | .note position _ => ∀ words, Placement.ofPosition position = .plain words →
      words = "left" ∨ words = "right"
  | _ => True

instance : (step : Action) → Decidable step.Placed
  | .note position _ =>
    match same : Placement.ofPosition position with
    | .plain words =>
      decidable_of_iff (words = "left" ∨ words = "right") (by simp [Action.Placed, same])
    | .near .. => .isTrue fun words plain => by rw [same] at plain; cases plain
  | .message .. | .activation _ | .deactivation _ | .alt .. | .loop .. | .par _ | .opt .. =>
    .isTrue trivial

theorem Action.Placed.names {known : List String} {action : Action} (placed : action.Placed)
    (mentioned : ∀ name ∈ mentions action, name ∈ known) : action.Names known := by
  cases action with
  | message source target text =>
    exact ⟨mentioned source (by simp [mentions]), mentioned target (by simp [mentions])⟩
  | activation actor | deactivation actor => exact mentioned actor (by simp [mentions])
  | alt | loop | par | opt => trivial
  | note position text =>
    show (Placement.ofPosition position).Stands known
    rw [mentions] at mentioned
    cases same : Placement.ofPosition position with
    | plain words => exact placed words same
    | near words names =>
      obtain ⟨listed, some, -⟩ := Placement.parts_of_ofPosition same
      rw [same] at mentioned
      exact ⟨listed, some, mentioned⟩

namespace Storyboard

/-- A storyboard whose notes are placed, and whose free text ends nothing. -/
structure Keeps (board : Storyboard) : Prop where
  placed : ∀ step ∈ stepsOf board.actions, step.Placed
  texts : ∀ step ∈ stepsOf board.actions, step.Keeps
  title : .endUml ∉ Token.kinds (Render.inert (board.title.getD "").toList)

/-- What the text of a storyboard shows in the place of a name. -/
def call (board : Storyboard) (name : String) : String :=
  board.nicknames.resolve (board.aliases.get name)

theorem agreed_call (board : Storyboard) :
    Agreed (board.actors.names ++ mentionsAll board.actions) board.aliases board.nicknames
      board.call where
  identifier _ member := Aliases.isIdentifier_get member
  resolve _ _ := rfl

theorem Keeps.readable {board : Storyboard} (keeps : board.Keeps) :
    ∀ step ∈ stepsOf board.actions,
      step.Readable (board.actors.names ++ mentionsAll board.actions) := by
  intro step member
  refine ⟨(keeps.placed step member).names fun name mentioned => ?_, keeps.texts step member⟩
  exact List.mem_append_right _ (mem_mentionsAll mentioned board.actions member)

theorem actions_project_render {board : Storyboard} (keeps : board.Keeps) :
    (Document.ofSource board.render).project.actions =
      rewordAll (writtenWords board.call) board.actions := by
  obtain ⟨-, -, -, shows, -⟩ := document_render_of_agreed board.agreed_call
    (fun _ member => List.mem_append_left _ member) keeps.readable keeps.title
  exact shows

theorem shapeOf_written (call : String → String) (actions : List Action) :
    shapeOf (rewordAll (writtenWords call) actions) =
      rewordAll (shapeWords.after (writtenWords call)) (shapeOf actions) := by
  rw [shapeOf, shapeOf, Rewording.rewordAll_rewordAll, Rewording.rewordAll_rewordAll]
  rfl

theorem call_eq_of_shape {first second : Storyboard} (actors : first.actors = second.actors)
    (shape : shapeOf first.actions = shapeOf second.actions) : first.call = second.call := by
  -- Identifiers are given to actors and mentioned names in order, which the shape keeps.
  have mentioned : mentionsAll first.actions = mentionsAll second.actions := by
    rw [← mentionsAll_shape first.actions, ← mentionsAll_shape second.actions]
    exact congrArg mentionsAll shape
  have aliases : first.aliases = second.aliases := by
    rw [Storyboard.aliases, Storyboard.aliases, actors, mentioned]
  funext name
  rw [call, call, nicknames, nicknames, aliases, actors]

/-- Storyboards that differ in free text only have texts that show the same shape. -/
theorem shape_render {first second : Storyboard} (actors : first.actors = second.actors)
    (shape : shapeOf first.actions = shapeOf second.actions) (keeps : first.Keeps)
    (keeps' : second.Keeps) :
    shapeOf (Document.ofSource first.render).project.actions =
      shapeOf (Document.ofSource second.render).project.actions := by
  rw [actions_project_render keeps, actions_project_render keeps', shapeOf_written,
    shapeOf_written, shape, call_eq_of_shape actors shape]

/-- One storyboard with two notes, in which quotes, comment openers and keywords are text. -/
theorem shape_render_notes :
    let board (message condition note : String) : Storyboard :=
      ⟨⟨["A"], by decide⟩, [.loop condition [.message "A" "A" message, .note "over A" note]],
        .gui, none⟩
    let plain := board "" "" ""
    let other := board "end /' \"loop\"" "ready: @yes" "the end\nof 'note'"
    (plain.actors = other.actors ∧ shapeOf plain.actions = shapeOf other.actions ∧
      plain.Keeps ∧ other.Keeps) ∧
    shapeOf (Document.ofSource plain.render).project.actions =
      shapeOf (Document.ofSource other.render).project.actions := by
  intro board plain other
  have keeps (message condition note : String)
      (kept : .endUml ∉ Token.kinds (Render.inert message.toList))
      (kept' : Render.LabelKept condition) (kept'' : Render.NoteKept note) :
      (board message condition note).Keeps := by
    have placed : Action.Placed (.note "over A" note) := by
      intro words plain
      have near : Placement.ofPosition "over A" = .near "over " ["A"] := by decide +kernel
      rw [near] at plain
      cases plain
    have untitled : .endUml ∉ Token.kinds (Render.inert "".toList) := by decide +kernel
    refine ⟨?_, ?_, untitled⟩
    · simpa [board, stepsOf, Action.steps] using ⟨trivial, trivial, placed⟩
    · simpa [board, stepsOf, Action.steps] using ⟨kept', kept, kept''⟩
  have first : plain.Keeps :=
    keeps "" "" "" (by decide +kernel) (by decide +kernel) (by decide +kernel)
  have second : other.Keeps :=
    keeps _ _ _ (by decide +kernel) (by decide +kernel) (by decide +kernel)
  exact ⟨⟨rfl, rfl, first, second⟩, shape_render rfl rfl first second⟩

/-- Without what is asked of it, any one free text can change the shape. -/
theorem shape_render_altered :
    let board (title message note condition otherwise : String) : Storyboard :=
      ⟨⟨["A"], by decide⟩,
        [.alt condition [.message "A" "A" message] [.note "left" note] otherwise],
        .gui, some title⟩
    let plain := board "" "" "" "" ""
    ∀ other ∈ [board "@enduml" "" "" "" "", board "" "@enduml" "" "" "",
        board "" "" "\nend note\nactivate A" "" "", board "" "" "" "end" "",
        board "" "" "" "" "or else", board "" "" "" "@startuml actor B as A" ""],
      (plain.actors = other.actors ∧ shapeOf plain.actions = shapeOf other.actions) ∧
        shapeOf (Document.ofSource plain.render).project.actions ≠
          shapeOf (Document.ofSource other.render).project.actions := by
  decide +kernel

end Storyboard

end Lifeline
