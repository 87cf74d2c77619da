import Lifeline.Proofs.Storyboard.Ends

/-! Conversion in one walk.

What a document shows can be found by going over its statements once more, with the nicknames in hand:
names are taken up where messages mention them, and a title replaces the one before. It comes to what
the nodes of the document tell. -/

set_option autoImplicit false

namespace Lifeline

structure Found where
  actors : Roster
  title : Option String

namespace Found

def meet (found : Found) (name : String) : Found := { found with actors := found.actors.insert name }

def see (nicknames : Nicknames) (found : Found) (node : Node) : Found where
  actors := (node.endpoints.map nicknames.resolve).foldl Roster.insert found.actors
  title := node.title?.or found.title

end Found

mutual

def Statement.convert (nicknames : Nicknames) (found : Found) : Statement → Option Action × Found
  | .message source target text arrow _ _ _ =>
    let sender := nicknames.resolve source
    let receiver := nicknames.resolve target
    let action := if Token.arrowClass? arrow = some .reverse then Action.message receiver sender text
      else .message sender receiver text
    (some action, (found.meet sender).meet receiver)
  | .activation target _ => (some (.activation (nicknames.resolve target)), found)
  | .deactivation target _ => (some (.deactivation (nicknames.resolve target)), found)
  | .note text target side _ => (some (.note (notePosition nicknames side target) text), found)
  | .title text _ => (none, { found with title := some text })
  | .alternative _ branches _ => convertAlternative nicknames found branches
  | .loop condition statements _ =>
    let (actions, found) := convertAll nicknames found statements
    (some (.loop condition actions), found)
  | .optional condition statements _ =>
    let (actions, found) := convertAll nicknames found statements
    (some (.opt condition actions), found)
  | .parallel branches _ =>
    let (branches, found) := convertBranches nicknames found branches
    (some (.par branches), found)
  | .participant .. | .autonumber .. | .error .. => (none, found)

def convertAll (nicknames : Nicknames) (found : Found) : List Statement → List Action × Found
  | [] => ([], found)
  | statement :: rest =>
    let (action, found) := statement.convert nicknames found
    let (actions, found) := convertAll nicknames found rest
    (action.toList ++ actions, found)

def convertAlternative (nicknames : Nicknames) (found : Found) :
    List Branch → Option Action × Found
  | [] => (none, found)
  | [.mk condition statements _] =>
    let (whenTrue, found) := convertAll nicknames found statements
    (some (.alt condition whenTrue [] ""), found)
  | [.mk condition statements _, .mk otherwise statements' _] =>
    let (whenTrue, found) := convertAll nicknames found statements
    let (whenFalse, found) := convertAll nicknames found statements'
    (some (.alt condition whenTrue whenFalse otherwise), found)
  | .mk condition statements _ :: second :: third :: more =>
    let (whenTrue, found) := convertAll nicknames found statements
    let (later, found) := convertAlternative nicknames found (second :: third :: more)
    (some (.alt condition whenTrue later.toList ""), found)

def convertBranches (nicknames : Nicknames) (found : Found) :
    List Branch → List (List Action) × Found
  | [] => ([], found)
  | .mk _ statements _ :: rest =>
    let (actions, found) := convertAll nicknames found statements
    let (branches, found) := convertBranches nicknames found rest
    (actions :: branches, found)

end

/-- What a document shows, found by going over its declarations and then over all statements. -/
def Document.convert (document : Document) : Projection :=
  let (actions, found) :=
    convertAll document.nicknames ⟨.ofList document.declared, none⟩ document.statements
  ⟨found.actors, actions, found.title⟩

section

variable {nicknames : Nicknames}

mutual

theorem Statement.convert_eq (found : Found) : (statement : Statement) →
    statement.convert nicknames found =
      (statement.action? nicknames, statement.nodes.foldl (Found.see nicknames) found)
  | .message source target text arrow _ _ _ => by
    rw [Statement.convert, Statement.action?]
    split <;> rfl
  | .alternative _ branches _ => convertAlternative_eq found branches
  | .loop condition statements _ => by
    rw [Statement.convert, convertAll_eq found statements]
    rfl
  | .optional condition statements _ => by
    rw [Statement.convert, convertAll_eq found statements]
    rfl
  | .parallel branches _ => by
    rw [Statement.convert, convertBranches_eq found branches]
    rfl
  | .participant .. | .note .. | .activation .. | .deactivation .. | .title .. | .autonumber ..
  | .error .. => rfl

theorem convertAll_eq (found : Found) : (statements : List Statement) →
    convertAll nicknames found statements =
      (actionsOf nicknames statements,
        (nodesOfStatements statements).foldl (Found.see nicknames) found)
  | [] => rfl
  | statement :: rest => by
    rw [convertAll, statement.convert_eq found]
    dsimp only
    rw [convertAll_eq _ rest, actionsOf, nodesOfStatements, List.foldl_append]

theorem convertAlternative_eq (found : Found) : (branches : List Branch) →
    convertAlternative nicknames found branches =
      (alternativeAction? nicknames branches,
        (nodesOfBranches branches).foldl (Found.see nicknames) found)
  | [] => rfl
  | [.mk condition statements _] => by
    rw [convertAlternative, convertAll_eq found statements]
    simp only [alternativeAction?, nodesOfBranches, Branch.nodes, List.append_nil]
    rfl
  | [.mk condition statements _, .mk otherwise statements' _] => by
    rw [convertAlternative, convertAll_eq found statements]
    dsimp only
    rw [convertAll_eq _ statements']
    simp only [alternativeAction?, nodesOfBranches, Branch.nodes, List.append_nil, List.foldl_append]
    rfl
  | .mk condition statements _ :: second :: third :: more => by
    rw [convertAlternative, convertAll_eq found statements]
    dsimp only
    rw [convertAlternative_eq _ (second :: third :: more)]
    simp only [alternativeAction?, nodesOfBranches, Branch.nodes, List.foldl_append, List.foldl_cons]
    rfl

theorem convertBranches_eq (found : Found) : (branches : List Branch) →
    convertBranches nicknames found branches =
      (branchActions nicknames branches,
        (nodesOfBranches branches).foldl (Found.see nicknames) found)
  | [] => rfl
  | .mk _ statements _ :: rest => by
    rw [convertBranches, convertAll_eq found statements]
    dsimp only
    rw [convertBranches_eq _ rest, branchActions, nodesOfBranches, Branch.nodes, List.foldl_append]
    rfl

end

theorem Found.foldl_see (found : Found) (nodes : List Node) :
    nodes.foldl (see nicknames) found =
      ⟨((nodes.flatMap Node.endpoints).map nicknames.resolve).foldl Roster.insert found.actors,
        (nodes.filterMap Node.title?).getLast?.or found.title⟩ := by
  induction nodes generalizing found with
  | nil => rfl
  | cons node rest ih =>
    have titles : ((node :: rest).filterMap Node.title?).getLast?.or found.title =
        (rest.filterMap Node.title?).getLast?.or (node.title?.or found.title) := by
      cases title : node.title? with
      | none =>
        rw [List.filterMap_cons_none title]
        rfl
      | some text =>
        rw [List.filterMap_cons_some title, List.getLast?_cons, Option.some_or, Option.some_or]
        cases (rest.filterMap Node.title?).getLast? <;> rfl
    rw [List.foldl_cons, ih, see, titles, List.flatMap_cons, List.map_append, List.foldl_append]

end

namespace Document

/-- Only the statements of a document show in what is read off its nodes. -/
theorem filterMap_nodes {α : Type} {read : Node → Option α} (top : read ⟨.document, none⟩ = none)
    (hollow : read ⟨.diagram, none⟩ = none) (document : Document) :
    document.nodes.filterMap read = (nodesOfStatements document.statements).filterMap read := by
  rw [nodes, List.filterMap_cons_none top, statements]
  induction document.diagrams with
  | nil => rfl
  | cons diagram rest ih =>
    rw [List.flatMap_cons, List.flatMap_cons, List.filterMap_append, ih, Diagram.nodes,
      List.filterMap_cons_none hollow, nodesOfStatements_append, List.filterMap_append]

theorem convert_eq_project (document : Document) : document.convert = document.project := by
  have titles : document.titles = (nodesOfStatements document.statements).filterMap Node.title? :=
    filterMap_nodes rfl rfl document
  rw [convert, convertAll_eq, Found.foldl_see, project, document.endpoints_statements, titles,
    Roster.ofList, Roster.ofList, List.foldl_append]
  simp only [Option.or_none]

end Document

end Lifeline
