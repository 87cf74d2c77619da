import Lifeline.Proofs.Storyboard.Shape

/-! Who messages go between, as a document says it and as the storyboard does.

An arrow to the left is shown as a message the other way round, and an alternative with many
branches as alternatives within each other. Neither changes between whom messages go, so in a
storyboard that a source shows, only actors send and receive messages. -/

set_option autoImplicit false

namespace Lifeline

open List (Perm)

def Action.ends : Action → List String
  | .message source target _ => [source, target]
  | _ => []

def endsOf (actions : List Action) : List String := (stepsOf actions).flatMap Action.ends

def resolvedEnds (nicknames : Nicknames) (nodes : List Node) : List String :=
  (nodes.flatMap Node.endpoints).map nicknames.resolve

variable {nicknames : Nicknames}

theorem endsOf_append (first second : List Action) :
    endsOf (first ++ second) = endsOf first ++ endsOf second := by
  rw [endsOf, stepsOf_append, List.flatMap_append, ← endsOf, ← endsOf]

theorem endsOf_singleton (action : Action) :
    endsOf [action] = action.steps.flatMap Action.ends := by
  rw [endsOf, stepsOf, stepsOf, List.append_nil]

theorem endsOf_alt (condition : String) (whenTrue whenFalse : List Action) (otherwise : String) :
    endsOf [.alt condition whenTrue whenFalse otherwise] = endsOf whenTrue ++ endsOf whenFalse := by
  rw [endsOf_singleton, Action.steps, List.flatMap_cons, List.flatMap_append]
  rfl

theorem resolvedEnds_append (first second : List Node) :
    resolvedEnds nicknames (first ++ second) =
      resolvedEnds nicknames first ++ resolvedEnds nicknames second := by
  rw [resolvedEnds, List.flatMap_append, List.map_append, ← resolvedEnds, ← resolvedEnds]

theorem resolvedEnds_branches (branch : Branch) (rest : List Branch) :
    resolvedEnds nicknames (nodesOfBranches (branch :: rest)) =
      resolvedEnds nicknames (nodesOfStatements branch.statements) ++
        resolvedEnds nicknames (nodesOfBranches rest) := by
  obtain ⟨condition, statements, span⟩ := branch
  rw [nodesOfBranches, resolvedEnds_append]
  rfl

mutual

theorem endsOf_action? : (statement : Statement) →
    Perm (endsOf (statement.action? nicknames).toList) (resolvedEnds nicknames statement.nodes)
  | .message source target text arrow _ _ _ => by
    rw [Statement.action?]
    -- An arrow to the left makes the receiver the sender.
    split
    · exact .swap _ _ []
    · exact .refl _
  | .alternative _ branches _ => endsOf_alternative branches
  | .loop _ statements _ => by
    rw [Statement.action?, Option.toList_some, endsOf_singleton]
    exact endsOf_actionsOf statements
  | .optional _ statements _ => by
    rw [Statement.action?, Option.toList_some, endsOf_singleton]
    exact endsOf_actionsOf statements
  | .parallel branches _ => by
    rw [Statement.action?, Option.toList_some, endsOf_singleton]
    exact endsOf_branches branches
  | .activation .. | .deactivation .. | .note .. | .participant .. | .title .. | .autonumber ..
  | .error .. => .refl []

theorem endsOf_actionsOf : (statements : List Statement) →
    Perm (endsOf (actionsOf nicknames statements))
      (resolvedEnds nicknames (nodesOfStatements statements))
  | [] => .refl []
  | statement :: rest => by
    rw [actionsOf, endsOf_append, nodesOfStatements, resolvedEnds_append]
    exact (endsOf_action? statement).append (endsOf_actionsOf rest)

theorem endsOf_alternative : (branches : List Branch) →
    Perm (endsOf (alternativeAction? nicknames branches).toList)
      (resolvedEnds nicknames (nodesOfBranches branches))
  | [] => .refl []
  | [.mk condition statements span] => by
    rw [resolvedEnds_branches, alternativeAction?, Option.toList_some, endsOf_alt]
    exact (endsOf_actionsOf statements).append (.refl [])
  | [.mk condition statements span, .mk otherwise statements' span'] => by
    rw [resolvedEnds_branches, resolvedEnds_branches, alternativeAction?, Option.toList_some,
      endsOf_alt, ← List.append_nil (endsOf (actionsOf nicknames statements'))]
    exact (endsOf_actionsOf statements).append ((endsOf_actionsOf statements').append (.refl []))
  | .mk condition statements _ :: second :: third :: more => by
    -- The later branches nest, and their messages stay behind those of the first one.
    rw [resolvedEnds_branches, alternativeAction?, Option.toList_some, endsOf_alt]
    exact (endsOf_actionsOf statements).append (endsOf_alternative (second :: third :: more))

theorem endsOf_branches : (branches : List Branch) →
    Perm ((stepsOfBranches (branchActions nicknames branches)).flatMap Action.ends)
      (resolvedEnds nicknames (nodesOfBranches branches))
  | [] => .refl []
  | .mk _ statements _ :: rest => by
    rw [branchActions, stepsOfBranches, List.flatMap_append, resolvedEnds_branches]
    exact (endsOf_actionsOf statements).append (endsOf_branches rest)

end

theorem endsOf_written (call : String → String) (actions : List Action) :
    endsOf (rewordAll (writtenWords call) actions) = (endsOf actions).map call := by
  have each (step : Action) : (step.reword (writtenWords call)).ends = step.ends.map call := by
    rcases step with _ | _ | _ | _ | _ | _ | (_ | _) | _ <;> rfl
  rw [endsOf, endsOf, Rewording.stepsOf_rewordAll rfl, List.flatMap_map, List.map_flatMap]
  simp only [each]

/-! ## Whole documents -/

/-- Only statements have ends, so a document has those of its statements. -/
theorem Document.endpoints_statements (document : Document) :
    document.endpoints = (nodesOfStatements document.statements).flatMap Node.endpoints := by
  obtain ⟨diagrams, span⟩ := document
  rw [endpoints_eq, Document.nodes, Document.statements, List.flatMap_cons]
  show (diagrams.flatMap Diagram.nodes).flatMap Node.endpoints = _
  induction diagrams with
  | nil => rfl
  | cons diagram rest ih =>
    rw [List.flatMap_cons, List.flatMap_append, ih, List.flatMap_cons, nodesOfStatements_append,
      List.flatMap_append]
    rfl

theorem Document.mem_endsOf {document : Document} {name : String} :
    name ∈ endsOf document.project.actions ↔
      name ∈ document.endpoints.map document.nicknames.resolve := by
  rw [document.endpoints_statements]
  exact (endsOf_actionsOf document.statements).mem_iff

namespace Storyboard

/-- In a storyboard that a source shows, messages go between actors. -/
theorem endsOf_ofSource (source : String) :
    ∀ name ∈ endsOf (ofSource source).actions, name ∈ (ofSource source).actors.names :=
  fun _ member => mem_ofList.2 (List.mem_append_right _ (Document.mem_endsOf.1 member))

end Storyboard

end Lifeline
