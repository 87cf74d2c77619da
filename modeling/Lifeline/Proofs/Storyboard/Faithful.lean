import Lifeline.Proofs.Storyboard.Conversion
import Lifeline.Proofs.Storyboard.Rewording
import Mathlib.Data.List.Induction
import Mathlib.Data.List.Perm.Basic

/-! What a storyboard keeps of a document.

The steps of what a document shows, taken in order, are those of its nodes: every statement that is
shown has one step, and every block as well, with the bodies that it has. Alternatives are the one
exception. A step for them has two branches, so further ones go into its second branch, and there are
as many steps as it takes. -/

set_option autoImplicit false

namespace Lifeline

/-! ## Steps and nodes -/

section

variable {α : Type} {nicknames : Nicknames} {read : Action → Option α} {see : Node → Option α}

/-- Whether what is read off the action of a statement is what is seen of its node, and nothing is read
off alternatives. -/
structure Matches (nicknames : Nicknames) (read : Action → Option α) (see : Node → Option α) :
    Prop where
  alt : ∀ condition whenTrue whenFalse otherwise,
    read (.alt condition whenTrue whenFalse otherwise) = none
  alternative : ∀ condition branches span,
    see ⟨.alternative, some (.alternative condition branches span)⟩ = none
  hollow : ∀ kind ∈ [NodeKind.document, .diagram, .branch], see ⟨kind, none⟩ = none
  other : ∀ statement : Statement, statement.kind ≠ .alternative →
    (statement.action? nicknames).bind read = see ⟨statement.kind, some statement⟩

namespace Matches

theorem filterMap_cons {β : Type} (f : β → Option α) (first : β) (rest : List β) :
    (first :: rest).filterMap f = (f first).toList ++ rest.filterMap f := by
  cases found : f first with
  | none => rw [List.filterMap_cons_none found]; rfl
  | some => rw [List.filterMap_cons_some found]; rfl

theorem cons (same : Matches nicknames read see) {statement : Statement}
    (other : statement.kind ≠ .alternative)
    {action : Action} (shown : statement.action? nicknames = some action) {inner : List Action}
    {nodes : List Node} (steps : action.steps = action :: inner)
    (later : inner.filterMap read = nodes.filterMap see) :
    (stepsOf (statement.action? nicknames).toList).filterMap read =
      (⟨statement.kind, some statement⟩ :: nodes).filterMap see := by
  have first := same.other statement other
  rw [shown, Option.bind_some] at first
  rw [shown, Option.toList_some, stepsOf, stepsOf, List.append_nil, steps, filterMap_cons,
    filterMap_cons, first, later]

theorem none (same : Matches nicknames read see) {statement : Statement}
    (other : statement.kind ≠ .alternative)
    (shown : statement.action? nicknames = none) :
    (stepsOf (statement.action? nicknames).toList).filterMap read =
      [⟨statement.kind, some statement⟩].filterMap see := by
  have first := same.other statement other
  rw [shown] at first
  rw [shown, List.filterMap_cons_none first.symm]
  rfl

theorem branch (same : Matches nicknames read see) : see ⟨.branch, .none⟩ = .none :=
  same.hollow _ (by decide)

mutual

theorem action? (same : Matches nicknames read see) : (statement : Statement) →
    (stepsOf (statement.action? nicknames).toList).filterMap read = statement.nodes.filterMap see
  | .alternative condition branches span => by
    rw [Statement.nodes, List.filterMap_cons_none (same.alternative _ _ _)]
    exact same.alternativeAction? branches
  | .loop _ statements _ => same.cons (by nofun) rfl rfl (same.actionsOf statements)
  | .optional _ statements _ => same.cons (by nofun) rfl rfl (same.actionsOf statements)
  | .parallel branches _ => same.cons (by nofun) rfl rfl (same.branchActions branches)
  | .message source target text arrow isAsync isReturn span => by
    have shown : (Statement.message source target text arrow isAsync isReturn span).action?
        nicknames = if Token.arrowClass? arrow = some .reverse
          then some (.message (nicknames.resolve target) (nicknames.resolve source) text)
          else some (.message (nicknames.resolve source) (nicknames.resolve target) text) := rfl
    split at shown
    · exact same.cons (by nofun) shown rfl rfl
    · exact same.cons (by nofun) shown rfl rfl
  | .note .. => same.cons (by nofun) rfl rfl rfl
  | .activation .. => same.cons (by nofun) rfl rfl rfl
  | .deactivation .. => same.cons (by nofun) rfl rfl rfl
  | .participant .. => same.none (by nofun) rfl
  | .title .. => same.none (by nofun) rfl
  | .autonumber .. => same.none (by nofun) rfl
  | .error .. => same.none (by nofun) rfl

theorem actionsOf (same : Matches nicknames read see) : (statements : List Statement) →
    (stepsOf (actionsOf nicknames statements)).filterMap read =
      (nodesOfStatements statements).filterMap see
  | [] => rfl
  | statement :: rest => by
    rw [Lifeline.actionsOf, stepsOf_append, List.filterMap_append, same.action? statement,
      same.actionsOf rest, nodesOfStatements, List.filterMap_append]

theorem alternativeAction? (same : Matches nicknames read see) : (branches : List Branch) →
    (stepsOf (alternativeAction? nicknames branches).toList).filterMap read =
      (nodesOfBranches branches).filterMap see
  | [] => rfl
  | [.mk condition statements _] => by
    simp only [Lifeline.alternativeAction?, Option.toList_some, stepsOf, Action.steps, nodesOfBranches,
      Branch.nodes, List.append_nil, List.filterMap_cons_none (same.alt _ _ _ _),
      List.filterMap_cons_none same.branch, same.actionsOf statements]
  | [.mk condition statements _, .mk otherwise statements' _] => by
    simp only [Lifeline.alternativeAction?, Option.toList_some, stepsOf, Action.steps, nodesOfBranches,
      Branch.nodes, List.append_nil, List.filterMap_cons_none (same.alt _ _ _ _), List.filterMap_append,
      List.filterMap_cons_none same.branch, same.actionsOf statements, same.actionsOf statements']
  | .mk condition statements _ :: second :: third :: more => by
    have later := same.alternativeAction? (second :: third :: more)
    simp only [Lifeline.alternativeAction?, Option.toList_some, stepsOf, Action.steps,
      nodesOfBranches.eq_2 (.mk condition statements _), Branch.nodes, List.append_nil,
      List.filterMap_cons_none (same.alt _ _ _ _), List.filterMap_append,
      List.filterMap_cons_none same.branch, same.actionsOf statements, later]

theorem branchActions (same : Matches nicknames read see) : (branches : List Branch) →
    (stepsOfBranches (branchActions nicknames branches)).filterMap read =
      (nodesOfBranches branches).filterMap see
  | [] => rfl
  | .mk _ statements _ :: rest => by
    rw [Lifeline.branchActions, stepsOfBranches, List.filterMap_append, same.actionsOf statements,
      same.branchActions rest, nodesOfBranches, Branch.nodes, List.filterMap_append,
      List.filterMap_cons_none same.branch]

end

theorem project {document : Document} (same : Matches document.nicknames read see) :
    (stepsOf document.project.actions).filterMap read = document.nodes.filterMap see := by
  rw [Document.filterMap_nodes (same.hollow _ (by decide)) (same.hollow _ (by decide))]
  exact same.actionsOf document.statements

end Matches

end

/-! ## Names -/

/-- What a name stands for in a document: what the last declaration says that gives it to somebody as
a nickname, wherever that stands; itself if none does. -/
def Document.resolve (document : Document) (name : String) : String :=
  (((document.nodes.filterMap Node.nickname?).filter (·.1 == name)).getLast?.map Prod.snd).getD name

theorem lookup_eq_find? (pairs : List (String × String)) (key : String) :
    pairs.lookup key = (pairs.find? (·.1 == key)).map Prod.snd := by
  induction pairs with
  | nil => rfl
  | cons pair rest ih =>
    rw [List.lookup_cons, List.find?_cons, BEq.comm (a := pair.1), ih]
    cases key == pair.1 <;> rfl

theorem Document.nicknames_resolve (document : Document) :
    document.nicknames.resolve = document.resolve := by
  funext name
  rw [Nicknames.resolve, lookup_eq_find?, nicknames_eq, Document.resolve, List.getLast?_filter]

theorem names_ofList_eq (names : List String) : (Roster.ofList names).names = names.eraseDups := by
  induction names using List.reverseRecOn with
  | nil => rfl
  | append_singleton names name ih =>
    have added : Roster.ofList (names ++ [name]) = (Roster.ofList names).insert name := by
      rw [Roster.ofList, List.foldl_append]
      rfl
    rw [added, List.eraseDups_append, ← ih]
    by_cases present : name ∈ names
    · rw [Roster.names_insert_of_mem (mem_ofList.2 present)]
      simp [List.removeAll, present]
    · rw [Roster.names_insert_of_not_mem (present ∘ mem_ofList.1)]
      simp [List.removeAll, present, List.eraseDups_cons]

/-! ## Statements without bodies -/

def NoteSide.beside (rename : String → String) (side : NoteSide) : Option String → String
  | none => side.word
  | some names =>
    side.word ++ (if side = .over then " " else " of ") ++
      ", ".intercalate ((Text.split (· == ',') names.toList).map fun name =>
        rename (String.ofList (Text.trim name)))

def Statement.image? (rename : String → String) : Statement → Option Action
  | .message source target text arrow _ _ _ =>
    if Token.arrowClass? arrow = some .reverse then
      some (.message (rename target) (rename source) text)
    else some (.message (rename source) (rename target) text)
  | .activation target _ => some (.activation (rename target))
  | .deactivation target _ => some (.deactivation (rename target))
  | .note text target side _ => some (.note (side.beside rename target) text)
  | _ => none

def Node.image? (rename : String → String) (node : Node) : Option Action :=
  node.statement.bind (Statement.image? rename)

theorem beside_eq (nicknames : Nicknames) (side : NoteSide) (target : Option String) :
    side.beside nicknames.resolve target = notePosition nicknames side target := by
  cases target with
  | none => rfl
  | some names =>
    cases side <;> simp [NoteSide.beside, notePosition, Nicknames.resolveAll, NoteSide.word]

theorem matches_image (nicknames : Nicknames) :
    Matches nicknames (Option.guard (!Action.isCondition ·)) (Node.image? nicknames.resolve) where
  alt _ _ _ _ := rfl
  alternative _ _ _ := rfl
  hollow _ _ := rfl
  other statement other := by
    cases statement with
    | alternative => exact absurd rfl other
    | message source target text arrow =>
      simp only [Statement.action?, Node.image?, Statement.image?, Option.bind_some]
      split <;> rfl
    | note text target side span =>
      simp only [Statement.action?, Node.image?, Statement.image?, Option.bind_some, beside_eq]
      rfl
    | _ => rfl

/-! ## Blocks -/

structure Held (α : Type) where
  kind : NodeKind
  condition : String
  bodies : List α

def Held.map {α β : Type} (f : α → β) (held : Held α) : Held β :=
  ⟨held.kind, held.condition, held.bodies.map f⟩

def Action.held? : Action → Option (Held (List Action))
  | .loop condition actions => some ⟨.loop, condition, [actions]⟩
  | .opt condition actions => some ⟨.optional, condition, [actions]⟩
  | .par branches => some ⟨.parallel, "", branches⟩
  | _ => none

def Node.held? (node : Node) : Option (Held (List Statement)) :=
  match node.statement with
  | some (.loop condition statements _) => some ⟨.loop, condition, [statements]⟩
  | some (.optional condition statements _) => some ⟨.optional, condition, [statements]⟩
  | some (.parallel branches _) => some ⟨.parallel, "", branches.map Branch.statements⟩
  | _ => none

theorem branchActions_eq_map (nicknames : Nicknames) (branches : List Branch) :
    branchActions nicknames branches = (branches.map Branch.statements).map (actionsOf nicknames) := by
  induction branches with
  | nil => rfl
  | cons branch rest ih =>
    obtain ⟨condition, statements, span⟩ := branch
    rw [branchActions, ih]
    rfl

theorem matches_held (nicknames : Nicknames) :
    Matches nicknames Action.held? fun node => node.held?.map (Held.map (actionsOf nicknames)) where
  alt _ _ _ _ := rfl
  alternative _ _ _ := rfl
  hollow _ _ := rfl
  other statement other := by
    cases statement with
    | alternative => exact absurd rfl other
    | message source target text arrow =>
      simp only [Statement.action?]
      split <;> rfl
    | parallel branches =>
      simp only [Statement.action?, branchActions_eq_map]
      rfl
    | _ => rfl

/-! ## Alternatives -/

/-- Actions that stand for the branches of an alternative, each in the second branch of the one before:
every branch is the first one of an action, but for the last of several, which is the second of the
last action. -/
inductive NestedAlternatives : List (String × List Action) → List Action → Prop where
  | single {condition : String} {body : List Action} :
      NestedAlternatives [(condition, body)] [.alt condition body [] ""]
  | pair {condition otherwise : String} {body body' : List Action} :
      NestedAlternatives [(condition, body), (otherwise, body')] [.alt condition body body' otherwise]
  | more {condition : String} {body : List Action} {second third : String × List Action}
      {rest : List (String × List Action)} {inner : Action} {later : List Action} :
      NestedAlternatives (second :: third :: rest) (inner :: later) →
      NestedAlternatives ((condition, body) :: second :: third :: rest)
        (.alt condition body [inner] "" :: inner :: later)

theorem NestedAlternatives.length_eq {branches : List (String × List Action)} {actions : List Action}
    (nested : NestedAlternatives branches actions) : actions.length = max 1 (branches.length - 1) := by
  induction nested with
  | single | pair => rfl
  | more _ ih =>
    simp only [List.length_cons] at ih ⊢
    omega

def Branch.shown (nicknames : Nicknames) (branch : Branch) : String × List Action :=
  (branch.condition, actionsOf nicknames branch.statements)

def Action.isAlternative : Action → Bool
  | .alt .. => true
  | _ => false

def Node.branches? (node : Node) : Option (List Branch) :=
  match node.statement with
  | some (.alternative _ (first :: rest) _) => some (first :: rest)
  | _ => none

theorem Node.ne_nil_of_branches? {node : Node} {branches : List Branch}
    (found : node.branches? = some branches) : branches ≠ [] := by
  unfold Node.branches? at found
  split at found
  · cases found
    exact List.cons_ne_nil _ _
  · cases found

section

variable (nicknames : Nicknames)

def alternativeActions : List Branch → List Action
  | first :: second :: third :: rest =>
    (alternativeAction? nicknames (first :: second :: third :: rest)).toList ++
      alternativeActions (second :: third :: rest)
  | branches => (alternativeAction? nicknames branches).toList

theorem alternativeActions_cons (branch : Branch) (rest : List Branch) : ∃ action later,
    alternativeAction? nicknames (branch :: rest) = some action ∧
      alternativeActions nicknames (branch :: rest) = action :: later := by
  obtain ⟨condition, statements, span⟩ := branch
  rcases rest with _ | ⟨⟨otherwise, statements', span'⟩, _ | ⟨third, more⟩⟩
  · exact ⟨_, _, rfl, rfl⟩
  · exact ⟨_, _, rfl, rfl⟩
  · exact ⟨_, _, rfl, rfl⟩

theorem nested_alternativeActions : (branches : List Branch) → branches ≠ [] →
    NestedAlternatives (branches.map (Branch.shown nicknames)) (alternativeActions nicknames branches)
  | [], filled => absurd rfl filled
  | [.mk _ _ _], _ => .single
  | [.mk _ _ _, .mk _ _ _], _ => .pair
  | .mk condition statements _ :: second :: third :: more, _ => by
    have later := nested_alternativeActions (second :: third :: more) (List.cons_ne_nil _ _)
    obtain ⟨inner, actions, action, same⟩ := alternativeActions_cons nicknames second (third :: more)
    rw [same] at later
    rw [alternativeActions, same, alternativeAction?, action]
    exact .more later

/-- The actions of all alternatives among nodes, alternative by alternative. -/
def alternativesOf (nodes : List Node) : List Action :=
  (nodes.filterMap Node.branches?).flatMap (alternativeActions nicknames)

theorem alternativesOf_append (first second : List Node) :
    alternativesOf nicknames (first ++ second) =
      alternativesOf nicknames first ++ alternativesOf nicknames second := by
  rw [alternativesOf, List.filterMap_append, List.flatMap_append]
  rfl

theorem alternativesOf_cons {node : Node} (other : node.branches? = none) (nodes : List Node) :
    alternativesOf nicknames (node :: nodes) = alternativesOf nicknames nodes := by
  rw [alternativesOf, List.filterMap_cons_none other]
  rfl

theorem filter_steps {action : Action} (other : action.isAlternative = false) {inner : List Action}
    (steps : action.steps = action :: inner) :
    (stepsOf [action]).filter Action.isAlternative = inner.filter Action.isAlternative := by
  rw [stepsOf, stepsOf, List.append_nil, steps, List.filter_cons_of_neg (by simp [other])]

theorem filter_steps_alt (condition otherwise : String) (whenTrue whenFalse : List Action) :
    (stepsOf [.alt condition whenTrue whenFalse otherwise]).filter Action.isAlternative =
      .alt condition whenTrue whenFalse otherwise ::
        ((stepsOf whenTrue).filter Action.isAlternative ++
          (stepsOf whenFalse).filter Action.isAlternative) := by
  rw [stepsOf, stepsOf, List.append_nil, Action.steps, List.filter_cons_of_pos rfl,
    List.filter_append]

theorem alternativesOf_branch (condition : String) (statements : List Statement) (span : Span)
    (rest : List Branch) :
    alternativesOf nicknames (nodesOfBranches (.mk condition statements span :: rest)) =
      alternativesOf nicknames (nodesOfStatements statements) ++
        alternativesOf nicknames (nodesOfBranches rest) := by
  rw [nodesOfBranches, Branch.nodes, alternativesOf_append, alternativesOf_cons nicknames rfl]

mutual

/-- Among the steps of an action are those that its alternatives become, and no other alternatives. -/
theorem Statement.perm_alternatives : (statement : Statement) →
    ((stepsOf (statement.action? nicknames).toList).filter Action.isAlternative).Perm
      (alternativesOf nicknames statement.nodes)
  | .alternative _ [] _ => .refl _
  | .alternative _ (first :: rest) _ => perm_alternativeAction (first :: rest)
  | .loop _ statements _ => by
    rw [Statement.nodes, alternativesOf_cons nicknames rfl]
    exact .trans (.of_eq (filter_steps rfl rfl)) (perm_actionsOf statements)
  | .optional _ statements _ => by
    rw [Statement.nodes, alternativesOf_cons nicknames rfl]
    exact .trans (.of_eq (filter_steps rfl rfl)) (perm_actionsOf statements)
  | .parallel branches _ => by
    rw [Statement.nodes, alternativesOf_cons nicknames rfl]
    exact .trans (.of_eq (filter_steps rfl rfl)) (perm_branchActions branches)
  | .message .. => by
    rw [Statement.action?]
    split <;> exact .refl _
  | .note .. | .activation .. | .deactivation .. | .participant .. | .title .. | .autonumber ..
  | .error .. => .refl _

theorem perm_actionsOf : (statements : List Statement) →
    ((stepsOf (actionsOf nicknames statements)).filter Action.isAlternative).Perm
      (alternativesOf nicknames (nodesOfStatements statements))
  | [] => .refl _
  | statement :: rest => by
    rw [actionsOf, stepsOf_append, List.filter_append, nodesOfStatements, alternativesOf_append]
    exact statement.perm_alternatives.append (perm_actionsOf rest)

theorem perm_alternativeAction : (branches : List Branch) →
    ((stepsOf (alternativeAction? nicknames branches).toList).filter Action.isAlternative).Perm
      (alternativeActions nicknames branches ++ alternativesOf nicknames (nodesOfBranches branches))
  | [] => .refl _
  | [.mk condition statements span] => by
    rw [alternativesOf_branch]
    refine .trans (.of_eq (filter_steps_alt condition "" _ [])) (.cons _ ?_)
    exact (perm_actionsOf statements).append (.refl _)
  | [.mk condition statements span, .mk otherwise statements' span'] => by
    rw [alternativesOf_branch, alternativesOf_branch]
    refine .trans (.of_eq (filter_steps_alt condition otherwise _ _)) (.cons _ ?_)
    refine (perm_actionsOf statements).append ?_
    exact .trans (perm_actionsOf statements') (.of_eq (List.append_nil _).symm)
  | .mk condition statements span :: second :: third :: more => by
    have later := perm_alternativeAction (second :: third :: more)
    rw [alternativesOf_branch, alternativeActions, alternativeAction?, Option.toList_some,
      List.singleton_append, List.cons_append]
    refine .trans (.of_eq (filter_steps_alt condition "" _ _)) (.cons _ ?_)
    -- The actions of the later branches stand before those of the alternatives in the first one.
    refine .trans ((perm_actionsOf statements).append later) ?_
    exact List.perm_append_comm_assoc _ _ _

theorem perm_branchActions : (branches : List Branch) →
    ((stepsOfBranches (branchActions nicknames branches)).filter Action.isAlternative).Perm
      (alternativesOf nicknames (nodesOfBranches branches))
  | [] => .refl _
  | .mk _ statements _ :: rest => by
    rw [branchActions, stepsOfBranches, List.filter_append, alternativesOf_branch]
    exact (perm_actionsOf statements).append (perm_branchActions rest)

end

end

/-! ## Documents -/

def Action.isMessage : Action → Bool
  | .message .. => true
  | _ => false

theorem matches_message (nicknames : Nicknames) :
    Matches nicknames (fun action => if action.isMessage then some () else none)
      (fun node => if node.kind = .message then some () else none) where
  alt _ _ _ _ := rfl
  alternative _ _ _ := rfl
  hollow kind member := if_neg fun same => by
    change kind = .message at same
    subst same
    exact absurd member (by decide)
  other statement other := by
    cases statement with
    | alternative => exact absurd rfl other
    | message source target text arrow =>
      rw [Statement.action?]
      split <;> rfl
    | _ => rfl

namespace Document

theorem messages_eq (document : Document) : (Statistics.ofDocument document).messages =
    ((stepsOf document.project.actions).filter Action.isMessage).length := by
  have same := congrArg List.length (matches_message document.nicknames).project
  rw [List.length_filterMap_eq_countP, List.length_filterMap_eq_countP] at same
  have count : (Statistics.ofDocument document).messages =
      (document.nodes.map Node.kind).count .message := rfl
  rw [count, List.count_eq_countP, List.countP_map, ← List.countP_eq_length_filter]
  refine Eq.trans (List.countP_congr fun node _ => ?_) (same.symm.trans
    (List.countP_congr fun action _ => ?_))
  · by_cases message : node.kind = .message <;> simp [message]
  · cases message : action.isMessage <;> simp

/-- A storyboard shows all of a document, in its order. Statements without bodies correspond to steps
one by one, and so do loops, optional parts and what goes on in parallel, with their bodies. An
alternative corresponds to one step for each of its branches, but for the last of several. -/
theorem project_faithful (document : Document) :
    document.convert = document.project ∧
    (stepsOf document.project.actions).filter (!·.isCondition) =
      document.nodes.filterMap (Node.image? document.resolve) ∧
    (stepsOf document.project.actions).filterMap Action.held? =
      (document.nodes.filterMap Node.held?).map (Held.map (actionsOf document.nicknames)) ∧
    (∃ nestings, List.Forall₂ (fun branches actions =>
        NestedAlternatives (branches.map (Branch.shown document.nicknames)) actions ∧
          actions.length = max 1 (branches.length - 1))
        (document.nodes.filterMap Node.branches?) nestings ∧
      ((stepsOf document.project.actions).filter Action.isAlternative).Perm nestings.flatten) ∧
    document.project.actors.names =
      (document.nodes.filterMap Node.declared? ++
        (document.nodes.flatMap Node.endpoints).map document.resolve).eraseDups ∧
    document.project.title = (document.nodes.filterMap Node.title?).getLast? ∧
    (Statistics.ofDocument document).messages =
      ((stepsOf document.project.actions).filter Action.isMessage).length := by
  have leaves := (matches_image document.nicknames).project
  have held := (matches_held document.nicknames).project
  refine ⟨document.convert_eq_project, ?_, ?_, ?_, ?_, rfl, document.messages_eq⟩
  · rw [← document.nicknames_resolve, ← leaves, List.filterMap_eq_filter]
  · rw [held, List.map_filterMap]
  · refine ⟨(document.nodes.filterMap Node.branches?).map (alternativeActions document.nicknames),
      ?_, ?_⟩
    · refine List.forall₂_map_right_iff.2 (List.forall₂_same.2 fun branches member => ?_)
      obtain ⟨node, -, found⟩ := List.mem_filterMap.1 member
      have filled := Node.ne_nil_of_branches? found
      have nested := nested_alternativeActions document.nicknames branches filled
      exact ⟨nested, nested.length_eq.trans (by rw [List.length_map])⟩
    · rw [Document.filterMap_nodes rfl rfl, ← List.flatMap_def]
      exact perm_actionsOf document.nicknames document.statements
  · rw [← document.nicknames_resolve, ← names_ofList_eq]
    rfl

end Document

end Lifeline
