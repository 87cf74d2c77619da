import Lifeline.Proofs.Diagram.Source
import Lifeline.Proofs.Storyboard.Alias
import Lifeline.Proofs.Storyboard.Reading
import Lifeline.Storyboard.Source

/-! The text of a whole storyboard, read and projected.

The title, the declarations and the actions read one after the other. A declared name is found again
from its identifier, since identifiers are distinct, so that what the text shows is the storyboard
itself, its names as they are declared and its free text inert. -/

set_option autoImplicit false

namespace Lifeline

open Token (IsIdentifier kinds)
open Parsing (Reads)
open Render (written shown inert)

/-! ## Declarations -/

theorem lookup_eq_some_of_unique {pairs : List (String × String)} {key value : String}
    (member : (key, value) ∈ pairs)
    (unique : ∀ other, (key, other) ∈ pairs → other = value) : pairs.lookup key = some value := by
  induction pairs with
  | nil => cases member
  | cons pair rest ih =>
    obtain ⟨first, other⟩ := pair
    by_cases same : key = first
    · subst same
      rw [List.lookup_cons_self, unique other List.mem_cons_self]
    · have later : (key, value) ∈ rest := by
        rcases List.mem_cons.1 member with equal | later
        · cases equal
          exact absurd rfl same
        · exact later
      rw [List.lookup_cons, beq_false_of_ne same]
      exact ih later fun other inside => unique other (List.mem_cons_of_mem _ inside)

def declaredAs (aliases : Aliases) (names : List String) : Nicknames :=
  (names.map fun name => (aliases.get name, shown name)).reverse

theorem agreed_declaredAs {names mentioned : List String} :
    Agreed names (.ofNames (names ++ mentioned))
      (declaredAs (.ofNames (names ++ mentioned)) names) shown where
  identifier name member := Aliases.isIdentifier_get (List.mem_append_left mentioned member)
  resolve name member := by
    have known (other : String) (inside : other ∈ names) : other ∈ names ++ mentioned :=
      List.mem_append_left mentioned inside
    rw [Nicknames.resolve, Option.getD_eq_iff]
    left
    -- Identifiers are distinct, so the name is the only one that was declared by its identifier.
    apply lookup_eq_some_of_unique
    · rw [declaredAs, List.mem_reverse]
      exact List.mem_map_of_mem (f := fun name =>
        ((Aliases.ofNames (names ++ mentioned)).get name, shown name)) member
    · intro other inside
      rw [declaredAs, List.mem_reverse] at inside
      obtain ⟨name', member', same⟩ := List.mem_map.1 inside
      rw [Prod.mk.injEq] at same
      rw [← same.2, Aliases.get_injective (known name' member') (known name member) same.1]

def Declares (aliases : Aliases) (names : List String) (statements : List Statement) : Prop :=
  List.Forall₂ (fun name statement => ∃ span,
    statement = .participant .actor (shown name) (some (aliases.get name)) span) names statements

theorem reads_declarations {aliases : Aliases} {names : List String}
    (identifiers : ∀ name ∈ names, IsIdentifier (aliases.get name)) :
    Reads (written (names.map (Render.actorLine aliases))) (Declares aliases names) := by
  induction names with
  | nil => exact Reads.nil .nil
  | cons name rest ih =>
    have later := ih fun other member => identifiers other (List.mem_cons_of_mem name member)
    rw [List.map_cons, ← List.singleton_append, Render.written_append]
    refine (Render.reads_participant (identifiers name List.mem_cons_self)).append later ?_
    rintro one two ⟨_, rfl, span, rfl⟩ rest
    exact .cons ⟨span, rfl⟩ rest

def Titles (title : List Char) (statements : List Statement) : Prop :=
  if title = [] then statements = []
  else ∃ span, statements = [.title (String.ofList title) span]

theorem reads_titleLines {title : Option String}
    (kept : .endUml ∉ kinds (inert (title.getD "").toList)) :
    Reads (written (Render.titleLines title)) (Titles (inert (title.getD "").toList)) := by
  have harmless := Render.harmless_inert kept
  unfold Render.titleLines
  split
  · rename_i empty
    exact Reads.nil (by rw [Titles, if_pos empty])
  · rename_i text some
    refine (Render.reads_title harmless).mono ?_
    rintro statements ⟨_, rfl, span, rfl⟩
    rw [Titles, if_neg some]
    exact ⟨span, rfl⟩

theorem reads_gapLines (board : Storyboard) :
    Reads (written (Render.gapLines board)) fun statements => statements = [] := by
  unfold Render.gapLines
  split
  · exact Reads.nil rfl
  · rw [Render.written_cons]
    apply Reads.indent
    exact Reads.lineFeed rfl

theorem toList_render (board : Storyboard) :
    board.render.toList = written board.lines ++ "@enduml".toList := by
  rw [Storyboard.render, String.toList_append, String.toList_join, written, List.flatMap_map]

/-! ## What nodes add to a projection -/

namespace Node

def nickname? (node : Node) : Option (String × String) :=
  match node.statement with
  | some (.participant _ name (some nickname) _) => some (nickname, name)
  | _ => none

def declared? (node : Node) : Option String :=
  match node.statement with
  | some (.participant _ name _ _) => some name
  | _ => none

def endpoints (node : Node) : List String :=
  match node.statement with
  | some (.message source target ..) => [source, target]
  | _ => []

def title? (node : Node) : Option String :=
  match node.statement with
  | some (.title text _) => some text
  | _ => none

end Node

theorem nicknames_eq (document : Document) :
    document.nicknames = (document.nodes.filterMap Node.nickname?).reverse := rfl

theorem declared_eq (document : Document) :
    document.declared = document.nodes.filterMap Node.declared? := rfl

theorem endpoints_eq (document : Document) :
    document.endpoints = document.nodes.flatMap Node.endpoints := rfl

theorem titles_eq (document : Document) :
    document.titles = document.nodes.filterMap Node.title? := rfl

/-- What nodes declare, name and title. -/
structure Adds (nodes : List Node) (nicknames : List (String × String))
    (declared endpoints titles : List String) : Prop where
  nicknames : nodes.filterMap Node.nickname? = nicknames
  declared : nodes.filterMap Node.declared? = declared
  endpoints : nodes.flatMap Node.endpoints = endpoints
  titles : nodes.filterMap Node.title? = titles

theorem Adds.append {first second : List Node} {nicknames nicknames' : List (String × String)}
    {declared declared' endpoints endpoints' titles titles' : List String}
    (one : Adds first nicknames declared endpoints titles)
    (two : Adds second nicknames' declared' endpoints' titles') :
    Adds (first ++ second) (nicknames ++ nicknames') (declared ++ declared')
      (endpoints ++ endpoints') (titles ++ titles') where
  nicknames := by rw [List.filterMap_append, one.nicknames, two.nicknames]
  declared := by rw [List.filterMap_append, one.declared, two.declared]
  endpoints := by rw [List.flatMap_append, one.endpoints, two.endpoints]
  titles := by rw [List.filterMap_append, one.titles, two.titles]

theorem Titles.adds {title : List Char} {statements : List Statement}
    (titles : Titles title statements) :
    Adds (nodesOfStatements statements) [] [] []
      (if title = [] then [] else [String.ofList title]) := by
  unfold Titles at titles
  split at titles
  · rename_i empty
    subst titles
    rw [if_pos empty]
    exact ⟨rfl, rfl, rfl, rfl⟩
  · rename_i some
    obtain ⟨span, rfl⟩ := titles
    rw [if_neg some]
    exact ⟨rfl, rfl, rfl, rfl⟩

theorem Declares.adds {aliases : Aliases} {names : List String} {statements : List Statement}
    (declares : Declares aliases names statements) :
    Adds (nodesOfStatements statements) (names.map fun name => (aliases.get name, shown name))
      (names.map shown) [] [] := by
  induction declares with
  | nil => exact ⟨rfl, rfl, rfl, rfl⟩
  | @cons name _ names rest declares _ ih =>
    obtain ⟨span, rfl⟩ := declares
    have one : Adds (Statement.participant .actor (shown name) (some (aliases.get name)) span).nodes
        [(aliases.get name, shown name)] [shown name] [] [] := ⟨rfl, rfl, rfl, rfl⟩
    exact one.append ih

theorem Declares.projects {aliases : Aliases} {names : List String} {statements : List Statement}
    (declares : Declares aliases names statements) (nicknames : Nicknames) :
    actionsOf nicknames statements = [] := by
  induction declares with
  | nil => rfl
  | cons declares _ ih =>
    obtain ⟨span, rfl⟩ := declares
    rw [actionsOf, ih]
    rfl

theorem Titles.projects {title : List Char} {statements : List Statement}
    (titles : Titles title statements) (nicknames : Nicknames) :
    actionsOf nicknames statements = [] := by
  unfold Titles at titles
  split at titles
  · rw [titles]
    rfl
  · obtain ⟨span, rfl⟩ := titles
    rfl

theorem adds_one_of_quiet {nicknames : Nicknames} {actors : List String} {node : Node}
    (quiet : node.Quiet nicknames actors) : Adds [node] [] [] node.endpoints [] ∧
      ∀ name ∈ node.endpoints, nicknames.resolve name ∈ actors := by
  obtain ⟨kind, _ | ⟨_ | _⟩⟩ := node
  case some.message source target _ _ _ _ _ =>
    refine ⟨⟨rfl, rfl, rfl, rfl⟩, fun name member => ?_⟩
    simp only [Node.endpoints, List.mem_cons, List.not_mem_nil, or_false] at member
    rcases member with rfl | rfl
    · exact quiet.1
    · exact quiet.2
  all_goals first
    | exact ⟨⟨rfl, rfl, rfl, rfl⟩, fun _ none => by cases none⟩
    | exact absurd quiet id

theorem adds_of_quiet {nicknames : Nicknames} {actors : List String} {nodes : List Node}
    (quiet : ∀ node ∈ nodes, node.Quiet nicknames actors) :
    ∃ endpoints, Adds nodes [] [] endpoints [] ∧
      ∀ name ∈ endpoints, nicknames.resolve name ∈ actors := by
  induction nodes with
  | nil => exact ⟨[], ⟨rfl, rfl, rfl, rfl⟩, by simp⟩
  | cons node rest ih =>
    obtain ⟨endpoints, adds, named⟩ :=
      ih fun other member => quiet other (List.mem_cons_of_mem node member)
    obtain ⟨one, named'⟩ := adds_one_of_quiet (quiet node List.mem_cons_self)
    refine ⟨node.endpoints ++ endpoints, one.append adds, fun name member => ?_⟩
    exact (List.mem_append.1 member).elim (named' name) (named name)

/-! ## Rosters -/

theorem insert_of_mem {roster : Roster} {name : String} (present : name ∈ roster.names) :
    roster.insert name = roster := by
  rw [Roster.insert, dif_pos present]

theorem mem_foldl_insert {names : List String} {roster : Roster} {name : String} :
    name ∈ (names.foldl Roster.insert roster).names ↔ name ∈ roster.names ∨ name ∈ names := by
  induction names generalizing roster with
  | nil => simp
  | cons first rest ih => rw [List.foldl_cons, ih, Roster.mem_insert, List.mem_cons, or_assoc]

theorem mem_ofList {names : List String} {name : String} :
    name ∈ (Roster.ofList names).names ↔ name ∈ names := by
  rw [Roster.ofList, mem_foldl_insert]
  simp [Roster.empty]

theorem ofList_append_of_mem {names more : List String} (known : ∀ name ∈ more, name ∈ names) :
    Roster.ofList (names ++ more) = Roster.ofList names := by
  rw [Roster.ofList, List.foldl_append, ← Roster.ofList]
  have inside : ∀ name ∈ more, name ∈ (Roster.ofList names).names := fun name member =>
    mem_ofList.2 (known name member)
  generalize Roster.ofList names = roster at inside
  induction more with
  | nil => rfl
  | cons first rest ih =>
    rw [List.foldl_cons, insert_of_mem (inside first List.mem_cons_self)]
    exact ih (fun name member => known name (List.mem_cons_of_mem first member))
      fun name member => inside name (List.mem_cons_of_mem first member)

theorem names_foldl_insert {names : List String} {roster : Roster}
    (fresh : (roster.names ++ names).Nodup) :
    (names.foldl Roster.insert roster).names = roster.names ++ names := by
  induction names generalizing roster with
  | nil => simp
  | cons first rest ih =>
    have absent : first ∉ roster.names := fun present =>
      (List.nodup_append.1 fresh).2.2 first present first List.mem_cons_self rfl
    have same := Roster.names_insert_of_not_mem absent
    rw [List.foldl_cons, ih (by rw [same]; simpa using fresh), same, List.append_assoc]
    rfl

theorem names_ofList {names : List String} (nodup : names.Nodup) :
    (Roster.ofList names).names = names := by
  have fresh : (Roster.empty.names ++ names).Nodup := nodup
  exact names_foldl_insert fresh

theorem eq_of_names {first second : Roster} (same : first.names = second.names) :
    first = second := by
  cases first
  cases second
  cases same
  rfl

theorem ofList_names (roster : Roster) : Roster.ofList roster.names = roster :=
  eq_of_names (names_ofList roster.nodup)

/-! ## The whole storyboard -/

namespace Storyboard

/-- The title as the text shows it; a blank one is left out. -/
def shownTitle (title : Option String) : Option String :=
  let text := inert (title.getD "").toList
  if text = [] then none else some (String.ofList text)

def nicknames (board : Storyboard) : Nicknames := declaredAs board.aliases board.actors.names

variable {board : Storyboard} {known : List String} {call : String → String}

theorem reads_lines (agreed : Agreed known board.aliases board.nicknames call)
    (named : ∀ name ∈ board.actors.names, name ∈ known)
    (readable : ∀ step ∈ stepsOf board.actions, step.Readable known)
    (kept : .endUml ∉ kinds (inert (board.title.getD "").toList)) :
    Reads (written board.lines.tail) fun statements => ∃ title declared actions,
      statements = title ++ declared ++ actions ∧
        Titles (inert (board.title.getD "").toList) title ∧
        Declares board.aliases board.actors.names declared ∧
        Tells board.nicknames (known.map call) actions
          (rewordAll (writtenWords call) board.actions) := by
  have title := reads_titleLines kept
  have declared := reads_declarations fun name member => agreed.identifier name (named name member)
  have actions := reads_actions agreed board.actions readable 0
  have shape : board.lines.tail = Render.titleLines board.title ++
      board.actors.names.map (Render.actorLine board.aliases) ++
        (Render.gapLines board ++ Render.actionsLines board.aliases 0 board.actions) := by
    simp [lines]
  rw [shape, Render.written_append, Render.written_append, Render.written_append]
  refine ((title.pair declared).pair ((reads_gapLines board).pair actions)).mono ?_
  rintro statements
    ⟨_, _, rfl, ⟨title, declared, rfl, titles, declares⟩, _, actions, rfl, rfl, tells⟩
  exact ⟨title, declared, actions, rfl, titles, declares, tells⟩

/-- The text of a storyboard is read without a complaint. It declares the actors, its messages go
between known names, and it shows the storyboard: its names as they are called, and its free text
inert. -/
theorem document_render_of_agreed (agreed : Agreed known board.aliases board.nicknames call)
    (named : ∀ name ∈ board.actors.names, name ∈ known)
    (readable : ∀ step ∈ stepsOf board.actions, step.Readable known)
    (kept : .endUml ∉ kinds (inert (board.title.getD "").toList)) :
    let document := Document.ofSource board.render
    (analyze board.render).issues = [] ∧ document.declared = board.actors.names.map shown ∧
      (∀ name ∈ document.endpoints.map document.nicknames.resolve, name ∈ known.map call) ∧
      document.project.actions = rewordAll (writtenWords call) board.actions ∧
      document.project.title = shownTitle board.title := by
  have whole : board.render.toList = "@startuml".toList ++
      '\n' :: (written board.lines.tail ++ "@enduml".toList) := by
    rw [toList_render]
    rfl
  obtain ⟨statements, span, ⟨title, declared, actions, rfl, titles, declares, tells⟩, clean,
    diagrams⟩ := document_of_reads (reads_lines agreed named readable kept) whole
  obtain ⟨endpoints, quiet, resolved⟩ := adds_of_quiet tells.quiet
  have nodes : (Document.ofSource board.render).nodes = [⟨.document, none⟩, ⟨.diagram, none⟩] ++
      (nodesOfStatements title ++ nodesOfStatements declared ++ nodesOfStatements actions) := by
    rw [Document.nodes, diagrams, ← nodesOfStatements_append, ← nodesOfStatements_append]
    simp [Diagram.nodes]
  -- The title and the declarations add themselves, and the actions only the ends of messages.
  have front : Adds [⟨.document, none⟩, ⟨.diagram, none⟩] [] [] [] [] := ⟨rfl, rfl, rfl, rfl⟩
  have adds := front.append ((titles.adds.append declares.adds).append quiet)
  rw [← nodes] at adds
  have nicknames : (Document.ofSource board.render).nicknames = board.nicknames := by
    rw [nicknames_eq, adds.nicknames]
    simp [Storyboard.nicknames, declaredAs]
  have statements : (Document.ofSource board.render).statements = title ++ declared ++ actions := by
    rw [Document.statements, diagrams]
    simp
  refine ⟨clean, ?_, fun name member => ?_, ?_, ?_⟩
  · rw [declared_eq, adds.declared]
    simp
  · rw [nicknames, endpoints_eq, adds.endpoints] at member
    obtain ⟨endpoint, inside, rfl⟩ := List.mem_map.1 member
    exact resolved endpoint (by simpa using inside)
  · rw [Document.project, nicknames, statements, actionsOf_append, actionsOf_append,
      titles.projects, declares.projects, tells.projects]
    rfl
  · rw [Document.project, titles_eq, adds.titles]
    simp only [List.nil_append, List.append_nil, shownTitle]
    split <;> rfl

/-- What the text of a storyboard shows. Actors that only messages name come last. -/
theorem project_render_of_agreed (agreed : Agreed known board.aliases board.nicknames call)
    (named : ∀ name ∈ board.actors.names, name ∈ known)
    (readable : ∀ step ∈ stepsOf board.actions, step.Readable known)
    (kept : .endUml ∉ kinds (inert (board.title.getD "").toList)) :
    (analyze board.render).issues = [] ∧ ∃ further, (∀ name ∈ further, name ∈ known.map call) ∧
      (Document.ofSource board.render).project =
        { actors := .ofList (board.actors.names.map shown ++ further)
          actions := rewordAll (writtenWords call) board.actions
          title := shownTitle board.title } := by
  obtain ⟨clean, declared, resolved, actions, title⟩ :=
    document_render_of_agreed agreed named readable kept
  refine ⟨clean, _, resolved, ?_⟩
  rw [← actions, ← title, ← declared]
  rfl

theorem project_render (board : Storyboard)
    (readable : ∀ step ∈ stepsOf board.actions, step.Readable board.actors.names)
    (kept : .endUml ∉ kinds (inert (board.title.getD "").toList)) :
    (analyze board.render).issues = [] ∧
      (Document.ofSource board.render).project =
        { actors := .ofList (board.actors.names.map shown)
          actions := rewordAll (writtenWords shown) board.actions
          title := shownTitle board.title } := by
  have agreed : Agreed board.actors.names board.aliases board.nicknames shown := agreed_declaredAs
  obtain ⟨clean, further, known, shows⟩ :=
    project_render_of_agreed agreed (fun _ member => member) readable kept
  refine ⟨clean, ?_⟩
  rw [shows, ofList_append_of_mem known]

end Storyboard

end Lifeline
