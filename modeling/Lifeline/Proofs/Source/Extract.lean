import Lifeline.Proofs.Storyboard.Board
import Lifeline.Source.Extract

/-! What a storyboard shows of the lines of a source.

The document made of what the lines hold declares its actors under no nicknames, and the ends of its
messages are among them. It therefore projects to what the lines hold, in the same order. -/

set_option autoImplicit false

namespace Lifeline

namespace Extracted

def Closed (extracted : Extracted) : Prop :=
  ∀ message ∈ extracted.messages,
    message.source ∈ extracted.actors.names ∧ message.target ∈ extracted.actors.names

theorem closed_addLine {extracted : Extracted} (closed : extracted.Closed) (line : List Char) :
    (extracted.addLine line).Closed := by
  unfold addLine
  split
  · rename_i name nickname _
    intro message member
    have ends := closed message member
    exact ⟨Roster.mem_insert.2 (.inl ends.1), Roster.mem_insert.2 (.inl ends.2)⟩
  · split
    · rename_i found _
      intro message member
      simp only [Roster.mem_insert]
      rcases List.mem_append.1 member with old | new
      · have ends := closed message old
        exact ⟨.inl (.inl ends.1), .inl (.inl ends.2)⟩
      · rw [List.mem_singleton.1 new]
        exact ⟨.inl (.inr rfl), .inr rfl⟩
    · exact closed

theorem closed_foldl {extracted : Extracted} (closed : extracted.Closed) (lines : List (List Char)) :
    (lines.foldl addLine extracted).Closed := by
  induction lines generalizing extracted with
  | nil => exact closed
  | cons line rest ih => exact ih (closed_addLine closed line)

theorem adds_participants (names : List String) :
    Adds (nodesOfStatements (names.map fun name => .participant .actor name none .none))
      [] names [] [] := by
  induction names with
  | nil => exact ⟨rfl, rfl, rfl, rfl⟩
  | cons name rest ih =>
    have one : Adds (Statement.participant .actor name none .none).nodes [] [name] [] [] :=
      ⟨rfl, rfl, rfl, rfl⟩
    exact one.append ih

theorem adds_messages (messages : List ExtractedMessage) :
    Adds (nodesOfStatements (messages.map fun message =>
        .message message.source message.target message.text "->" false false .none))
      [] [] (messages.flatMap fun message => [message.source, message.target]) [] := by
  induction messages with
  | nil => exact ⟨rfl, rfl, rfl, rfl⟩
  | cons message rest ih =>
    have one : Adds (Statement.message message.source message.target message.text "->" false false
        .none).nodes [] [] [message.source, message.target] [] := ⟨rfl, rfl, rfl, rfl⟩
    exact one.append ih

theorem actionsOf_participants (names : List String) :
    actionsOf [] (names.map fun name => .participant .actor name none .none) = [] := by
  induction names with
  | nil => rfl
  | cons name rest ih => simp [actionsOf, Statement.action?, ih]

theorem actionsOf_messages (messages : List ExtractedMessage) :
    actionsOf [] (messages.map fun message =>
        .message message.source message.target message.text "->" false false .none) =
      messages.map fun message => .message message.source message.target message.text := by
  have forward : Token.arrowClass? "->" ≠ some .reverse := by decide
  induction messages with
  | nil => rfl
  | cons message rest ih => simp [actionsOf, Statement.action?, ih, forward, Nicknames.resolve]

def shown (extracted : Extracted) : Projection where
  actors := extracted.actors
  actions := extracted.messages.map fun message =>
    .message message.source message.target message.text
  title := none

theorem adds_document (extracted : Extracted) :
    Adds extracted.document.nodes [] extracted.actors.names
      (extracted.messages.flatMap fun message => [message.source, message.target]) [] := by
  have outer : Adds [⟨.document, none⟩, ⟨.diagram, none⟩] [] [] [] [] := ⟨rfl, rfl, rfl, rfl⟩
  have inner := (adds_participants extracted.actors.names).append
    (adds_messages extracted.messages)
  rw [← nodesOfStatements_append] at inner
  simpa [Document.nodes, document, Diagram.nodes] using outer.append inner

theorem project_document {extracted : Extracted} (closed : extracted.Closed) :
    extracted.document.project = extracted.shown := by
  have adds := adds_document extracted
  have nicknames : extracted.document.nicknames = [] := by
    rw [nicknames_eq, adds.nicknames]
    rfl
  have plain (names : List String) : names.map (Nicknames.resolve []) = names := List.map_id' names
  have actions : actionsOf [] extracted.document.statements = extracted.shown.actions := by
    simp [Document.statements, document, actionsOf_append, actionsOf_participants,
      actionsOf_messages, shown]
  have known : ∀ name ∈ extracted.messages.flatMap fun message => [message.source, message.target],
      name ∈ extracted.actors.names := by
    intro name member
    obtain ⟨message, inside, ends⟩ := List.mem_flatMap.1 member
    rcases List.mem_pair.1 ends with rfl | rfl
    · exact (closed message inside).1
    · exact (closed message inside).2
  rw [Document.project, nicknames, plain, actions, declared_eq, endpoints_eq, titles_eq,
    adds.declared, adds.endpoints, adds.titles, ofList_append_of_mem known, ofList_names]
  rfl

theorem project_document_extract (source : String) :
    (extract source).document.project = (extract source).shown :=
  project_document (closed_foldl (fun _ member => absurd member List.not_mem_nil) _)

end Extracted

end Lifeline
