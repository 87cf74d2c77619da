import Lifeline.Storyboard.Projection

/-! Documents without their places in a source.

A document stays what it is when all places are taken out of it: nothing that a storyboard shows
depends on them. So two documents that differ in places only show the same. -/

set_option autoImplicit false

namespace Lifeline

mutual

/-- A statement without the places of itself and of all that it holds. -/
def Statement.bare : Statement → Statement
  | .participant role name nickname _ => .participant role name nickname .none
  | .message source target text arrow isAsync isReturn _ =>
    .message source target text arrow isAsync isReturn .none
  | .alternative condition branches _ => .alternative condition (bareBranches branches) .none
  | .loop condition statements _ => .loop condition (bareStatements statements) .none
  | .parallel branches _ => .parallel (bareBranches branches) .none
  | .optional condition statements _ => .optional condition (bareStatements statements) .none
  | .note text target side _ => .note text target side .none
  | .activation target _ => .activation target .none
  | .deactivation target _ => .deactivation target .none
  | .title text _ => .title text .none
  | .autonumber first _ => .autonumber first .none
  | .error message _ => .error message .none

def bareStatements : List Statement → List Statement
  | [] => []
  | statement :: rest => statement.bare :: bareStatements rest

def Branch.bare : Branch → Branch
  | .mk condition statements _ => .mk condition (bareStatements statements) .none

def bareBranches : List Branch → List Branch
  | [] => []
  | branch :: rest => branch.bare :: bareBranches rest

end

theorem bareStatements_eq_map (statements : List Statement) :
    bareStatements statements = statements.map Statement.bare := by
  induction statements with
  | nil => rfl
  | cons statement rest ih => rw [bareStatements, ih, List.map_cons]

theorem bareBranches_eq_map (branches : List Branch) :
    bareBranches branches = branches.map Branch.bare := by
  induction branches with
  | nil => rfl
  | cons branch rest ih => rw [bareBranches, ih, List.map_cons]

@[simp] theorem Branch.condition_bare (branch : Branch) : branch.bare.condition = branch.condition := by
  cases branch
  rfl

def Diagram.bare (diagram : Diagram) : Diagram :=
  ⟨bareStatements diagram.statements, .none, diagram.terminated⟩

def Document.bare (document : Document) : Document :=
  ⟨document.diagrams.map Diagram.bare, .none⟩

def Node.bare (node : Node) : Node := ⟨node.kind, node.statement.map Statement.bare⟩

/-! ## The nodes of bare documents -/

mutual

theorem Statement.nodes_bare : (statement : Statement) →
    statement.bare.nodes = statement.nodes.map Node.bare
  | .alternative _ branches _ => congrArg (_ :: ·) (nodesOfBranches_bare branches)
  | .parallel branches _ => congrArg (_ :: ·) (nodesOfBranches_bare branches)
  | .loop _ statements _ => congrArg (_ :: ·) (nodesOfStatements_bare statements)
  | .optional _ statements _ => congrArg (_ :: ·) (nodesOfStatements_bare statements)
  | .participant .. | .message .. | .note .. | .activation .. | .deactivation .. | .title ..
  | .autonumber .. | .error .. => rfl

theorem nodesOfStatements_bare : (statements : List Statement) →
    nodesOfStatements (bareStatements statements) = (nodesOfStatements statements).map Node.bare
  | [] => rfl
  | statement :: rest => by
    rw [bareStatements, nodesOfStatements, nodesOfStatements, List.map_append, statement.nodes_bare,
      nodesOfStatements_bare rest]

theorem Branch.nodes_bare : (branch : Branch) → branch.bare.nodes = branch.nodes.map Node.bare
  | .mk _ statements _ => congrArg (_ :: ·) (nodesOfStatements_bare statements)

theorem nodesOfBranches_bare : (branches : List Branch) →
    nodesOfBranches (bareBranches branches) = (nodesOfBranches branches).map Node.bare
  | [] => rfl
  | branch :: rest => by
    rw [bareBranches, nodesOfBranches, nodesOfBranches, List.map_append, branch.nodes_bare,
      nodesOfBranches_bare rest]

end

theorem Document.nodes_bare (document : Document) :
    document.bare.nodes = document.nodes.map Node.bare := by
  have diagrams : document.bare.diagrams.flatMap Diagram.nodes =
      (document.diagrams.flatMap Diagram.nodes).map Node.bare := by
    rw [bare, List.flatMap_map, List.map_flatMap]
    refine congrArg (List.flatMap · document.diagrams) (funext fun diagram => ?_)
    exact congrArg (_ :: ·) (nodesOfStatements_bare diagram.statements)
  exact congrArg (_ :: ·) diagrams

/-! ## What bare documents show -/

section

variable (nicknames : Nicknames)

mutual

theorem Statement.action?_bare : (statement : Statement) →
    statement.bare.action? nicknames = statement.action? nicknames
  | .alternative _ branches _ => alternativeAction?_bare branches
  | .loop condition statements _ =>
    congrArg (fun actions => some (Action.loop condition actions)) (actionsOf_bare statements)
  | .optional condition statements _ =>
    congrArg (fun actions => some (Action.opt condition actions)) (actionsOf_bare statements)
  | .parallel branches _ =>
    congrArg (fun branches => some (Action.par branches)) (branchActions_bare branches)
  | .participant .. | .message .. | .note .. | .activation .. | .deactivation .. | .title ..
  | .autonumber .. | .error .. => rfl

theorem actionsOf_bare : (statements : List Statement) →
    actionsOf nicknames (bareStatements statements) = actionsOf nicknames statements
  | [] => rfl
  | statement :: rest => by
    rw [bareStatements, actionsOf, actionsOf, statement.action?_bare, actionsOf_bare rest]

theorem alternativeAction?_bare : (branches : List Branch) →
    alternativeAction? nicknames (bareBranches branches) = alternativeAction? nicknames branches
  | [] => rfl
  | [.mk condition statements _] => by
    simp only [bareBranches, Branch.bare, alternativeAction?, actionsOf_bare statements]
  | [.mk condition statements _, .mk otherwise statements' _] => by
    simp only [bareBranches, Branch.bare, alternativeAction?, actionsOf_bare statements,
      actionsOf_bare statements']
  | .mk condition statements _ :: second :: third :: more => by
    have later := alternativeAction?_bare (second :: third :: more)
    simp only [bareBranches, Branch.bare] at later ⊢
    simp only [alternativeAction?, actionsOf_bare statements, later]

theorem branchActions_bare : (branches : List Branch) →
    branchActions nicknames (bareBranches branches) = branchActions nicknames branches
  | [] => rfl
  | .mk condition statements _ :: rest => by
    rw [bareBranches, Branch.bare, branchActions, branchActions, actionsOf_bare statements,
      branchActions_bare rest]

end

end

namespace Document

theorem statements_bare (document : Document) :
    document.bare.statements = bareStatements document.statements := by
  rw [bareStatements_eq_map, statements, statements, bare, List.flatMap_map, List.map_flatMap]
  exact congrArg (List.flatMap · document.diagrams) (funext fun _ => bareStatements_eq_map _)

theorem project_bare (document : Document) : document.bare.project = document.project := by
  have filtered {α : Type} {read : Node → Option α} (reads : ∀ node, read node.bare = read node) :
      document.bare.nodes.filterMap read = document.nodes.filterMap read := by
    rw [nodes_bare, List.filterMap_map]
    exact congrArg (List.filterMap · document.nodes) (funext reads)
  have gathered {α : Type} {read : Node → List α} (reads : ∀ node, read node.bare = read node) :
      document.bare.nodes.flatMap read = document.nodes.flatMap read := by
    rw [nodes_bare, List.flatMap_map]
    exact congrArg (List.flatMap · document.nodes) (funext reads)
  have nicknames : document.bare.nicknames = document.nicknames :=
    congrArg List.reverse (filtered fun ⟨_, statement⟩ => by
      rcases statement with _ | (⟨_, _, _ | _, _⟩ | _) <;> rfl)
  have declared : document.bare.declared = document.declared :=
    filtered fun ⟨_, statement⟩ => by rcases statement with _ | (_ | _) <;> rfl
  have endpoints : document.bare.endpoints = document.endpoints :=
    gathered fun ⟨_, statement⟩ => by rcases statement with _ | (_ | _) <;> rfl
  have titles : document.bare.titles = document.titles :=
    filtered fun ⟨_, statement⟩ => by rcases statement with _ | (_ | _) <;> rfl
  rw [project, project, nicknames, declared, endpoints, titles, statements_bare, actionsOf_bare]

theorem project_eq_of_bare {first second : Document} (same : first.bare = second.bare) :
    first.project = second.project := by
  rw [← first.project_bare, same, second.project_bare]

end Document

end Lifeline
