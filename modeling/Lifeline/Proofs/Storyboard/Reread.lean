import Lifeline.Proofs.Diagram.Invariant
import Lifeline.Proofs.Storyboard.Board

/-! From a source to a storyboard, to its text and back.

A storyboard that a source without quotes and block comments shows holds nothing that writing it
changes: its names are words and numbers, its free text is inert already and ends nothing, and its
notes are placed as the source places them. So its text shows the same storyboard again. -/

set_option autoImplicit false

namespace Lifeline

open Token (IsName isBlank_of_isNameChar)
open Render (inert noteText shown Placement)

/-! ## Names -/

theorem Token.IsName.collapse {name : String} (isName : IsName name) :
    Text.collapse name.toList = name.toList := by
  have solid : ∀ c ∈ name.toList, Text.isBlank c = false := fun c member =>
    isBlank_of_isNameChar (isName.members c member)
  apply Text.collapse_of_spaced
  · generalize name.toList = text at solid
    induction text with
    | nil => exact trivial
    | cons c rest ih =>
      refine ⟨fun blank => ?_, ih fun d member => solid d (List.mem_cons_of_mem c member)⟩
      rw [solid c List.mem_cons_self] at blank
      cases blank
  · exact fun c head => solid c (List.mem_of_mem_head? head)

theorem Token.IsName.shown {name : String} (isName : IsName name) : Render.shown name = name := by
  have noQuote : '"' ∉ name.toList := fun member => absurd (isName.members '"' member) (by decide)
  rw [Render.shown, isName.collapse, Render.withoutQuotes_of_not_mem noQuote, String.ofList_toList]

theorem Token.IsName.listable {name : String} (isName : IsName name) : Listable name :=
  ⟨fun comma => absurd (isName.members ',' comma) (by decide),
    Text.trim_of_collapse isName.collapse⟩

/-! ## Actions that writing does not change -/

/-- What reading a clear source puts into a step; the two ends of a message are actors. -/
def Action.Fixed (actors : List String) : Action → Prop
  | .message source target text => (source ∈ actors ∧ target ∈ actors) ∧ Harmless text.toList
  | .activation _ | .deactivation _ => True
  | .note position text => Placement.Spelled IsName position ∧ IsNoteText text
  | .alt condition _ _ otherwise => Labels condition.toList ∧ Labels otherwise.toList
  | .loop condition _ | .opt condition _ => Labels condition.toList
  | .par branches => branches ≠ []

def Node.Told (nicknames : Nicknames) (actors : List String) (node : Node) : Prop :=
  node.Settled ∧ ∀ name ∈ node.endpoints, nicknames.resolve name ∈ actors

section

variable {nicknames : Nicknames} {actors : List String}

theorem spelled_notePosition (named : ∀ name, IsName name → IsName (nicknames.resolve name))
    {side : NoteSide} {target : Option String} (targets : side.Targets target) :
    Placement.Spelled IsName (notePosition nicknames side target) := by
  cases target with
  | none =>
    cases side with
    | left => exact .inl rfl
    | right => exact .inr (.inl rfl)
    | «over» => exact absurd rfl targets
  | some target =>
    obtain ⟨names, some, rfl, members⟩ := targets
    obtain ⟨first, rest, rfl⟩ := List.exists_cons_of_ne_nil some
    have resolved :=
      nicknames.resolveAll_intercalate fun name member => (members name member).listable
    have members' : ∀ name ∈ (first :: rest).map nicknames.resolve, IsName name := by
      intro name member
      obtain ⟨other, inside, rfl⟩ := List.mem_map.1 member
      exact named other (members other inside)
    have near (words : String) (listed : words ∈ Render.placements) : Placement.Spelled IsName
        (words ++ nicknames.resolveAll (", ".intercalate (first :: rest))) :=
      .inr (.inr ⟨words, listed, _, by simp, by rw [resolved], members'⟩)
    cases side with
    | left => exact near "left of " (by decide)
    | right => exact near "right of " (by decide)
    | «over» => exact near "over " (by decide)

theorem fixed_toList {action? : Option Action}
    (fixed : ∀ action ∈ action?, ∀ step ∈ action.steps, step.Fixed actors) :
    ∀ step ∈ stepsOf action?.toList, step.Fixed actors := by
  cases action? with
  | none => exact fun _ none => by cases none
  | some action => simpa [stepsOf] using fixed action rfl

mutual

theorem fixed_action? (named : ∀ name, IsName name → IsName (nicknames.resolve name)) :
    (statement : Statement) → (∀ node ∈ statement.nodes, node.Told nicknames actors) →
    ∀ action ∈ statement.action? nicknames, ∀ step ∈ action.steps, step.Fixed actors
  | .message source target text arrow _ _ _, told, action, stands => by
    obtain ⟨⟨-, harmless⟩, endpoints⟩ := told _ List.mem_cons_self
    have sender := endpoints source (by simp [Node.endpoints])
    have receiver := endpoints target (by simp [Node.endpoints])
    rw [Statement.action?] at stands
    -- An arrow to the left makes the receiver the sender.
    split at stands
    · cases stands
      simpa [Action.steps, Action.Fixed] using ⟨⟨receiver, sender⟩, harmless⟩
    · cases stands
      simpa [Action.steps, Action.Fixed] using ⟨⟨sender, receiver⟩, harmless⟩
  | .activation .., _, _, stands => by
    cases stands
    simp [Action.steps, Action.Fixed]
  | .deactivation .., _, _, stands => by
    cases stands
    simp [Action.steps, Action.Fixed]
  | .note text target side _, told, _, stands => by
    obtain ⟨⟨settled, targets⟩, -⟩ := told _ List.mem_cons_self
    cases stands
    simpa [Action.steps, Action.Fixed] using ⟨spelled_notePosition named targets, settled⟩
  | .alternative _ branches _, told, action, stands => by
    obtain ⟨⟨labels, -⟩, inside⟩ := List.forall_mem_cons.1 told
    exact fixed_alternative named branches labels inside action stands
  | .loop condition statements _, told, _, stands => by
    obtain ⟨⟨label, -⟩, inside⟩ := List.forall_mem_cons.1 told
    cases stands
    exact List.forall_mem_cons.2 ⟨label, fixed_actionsOf named statements inside⟩
  | .optional condition statements _, told, _, stands => by
    obtain ⟨⟨label, -⟩, inside⟩ := List.forall_mem_cons.1 told
    cases stands
    exact List.forall_mem_cons.2 ⟨label, fixed_actionsOf named statements inside⟩
  | .parallel branches _, told, _, stands => by
    obtain ⟨⟨some, -⟩, inside⟩ := List.forall_mem_cons.1 told
    cases stands
    refine List.forall_mem_cons.2 ⟨?_, fixed_branchActions named branches inside⟩
    obtain ⟨⟨condition, statements, span⟩, rest, rfl⟩ := List.exists_cons_of_ne_nil some
    exact List.cons_ne_nil _ _
  | .participant .., _, _, stands | .title .., _, _, stands | .autonumber .., _, _, stands
  | .error .., _, _, stands => by cases stands

theorem fixed_actionsOf (named : ∀ name, IsName name → IsName (nicknames.resolve name)) :
    (statements : List Statement) →
    (∀ node ∈ nodesOfStatements statements, node.Told nicknames actors) →
    ∀ step ∈ stepsOf (actionsOf nicknames statements), step.Fixed actors
  | [], _ => fun _ none => by cases none
  | statement :: rest, told => by
    rw [nodesOfStatements, List.forall_mem_append] at told
    rw [actionsOf, stepsOf_append]
    exact List.forall_mem_append.2 ⟨fixed_toList (fixed_action? named statement told.1),
      fixed_actionsOf named rest told.2⟩

theorem fixed_alternative (named : ∀ name, IsName name → IsName (nicknames.resolve name)) :
    (branches : List Branch) → (∀ branch ∈ branches, Labels branch.condition.toList) →
    (∀ node ∈ nodesOfBranches branches, node.Told nicknames actors) →
    ∀ action ∈ alternativeAction? nicknames branches, ∀ step ∈ action.steps, step.Fixed actors
  | [], _, _, _, stands => by cases stands
  | [.mk condition statements _], labels, told, _, stands => by
    cases stands
    have label := labels _ List.mem_cons_self
    rw [nodesOfBranches, nodesOfBranches, List.append_nil] at told
    refine List.forall_mem_cons.2 ⟨⟨label, labels_nil⟩, List.forall_mem_append.2 ⟨?_, ?_⟩⟩
    · exact fixed_actionsOf named statements (List.forall_mem_cons.1 told).2
    · exact fun _ none => by cases none
  | [.mk condition statements _, .mk otherwise statements' _], labels, told, _, stands => by
    cases stands
    have label := labels _ List.mem_cons_self
    have label' := labels _ (List.mem_cons_of_mem _ List.mem_cons_self)
    rw [nodesOfBranches, nodesOfBranches, nodesOfBranches, List.append_nil,
      List.forall_mem_append] at told
    refine List.forall_mem_cons.2 ⟨⟨label, label'⟩, List.forall_mem_append.2 ⟨?_, ?_⟩⟩
    · exact fixed_actionsOf named statements (List.forall_mem_cons.1 told.1).2
    · exact fixed_actionsOf named statements' (List.forall_mem_cons.1 told.2).2
  | .mk condition statements _ :: second :: third :: more, labels, told, _, stands => by
    rw [alternativeAction?] at stands
    cases stands
    obtain ⟨label, labels⟩ := List.forall_mem_cons.1 labels
    rw [nodesOfBranches, List.forall_mem_append] at told
    refine List.forall_mem_cons.2 ⟨⟨label, labels_nil⟩, List.forall_mem_append.2 ⟨?_, ?_⟩⟩
    · exact fixed_actionsOf named statements (List.forall_mem_cons.1 told.1).2
    · exact fixed_toList (fixed_alternative named (second :: third :: more) labels told.2)

theorem fixed_branchActions (named : ∀ name, IsName name → IsName (nicknames.resolve name)) :
    (branches : List Branch) → (∀ node ∈ nodesOfBranches branches, node.Told nicknames actors) →
    ∀ step ∈ stepsOfBranches (branchActions nicknames branches), step.Fixed actors
  | [], _ => fun _ none => by cases none
  | .mk _ statements _ :: rest, told => by
    rw [nodesOfBranches, List.forall_mem_append] at told
    rw [branchActions, stepsOfBranches]
    exact List.forall_mem_append.2
      ⟨fixed_actionsOf named statements (List.forall_mem_cons.1 told.1).2,
        fixed_branchActions named rest told.2⟩

end

end

/-! ## What comes back -/

theorem inert_of_harmless {text : String} (harmless : Harmless text.toList) :
    inert text.toList = text.toList :=
  Render.inert_of_inert harmless.toInert

theorem ofList_inert {text : String} (harmless : Harmless text.toList) :
    String.ofList (inert text.toList) = text := by
  rw [inert_of_harmless harmless, String.ofList_toList]

theorem labelKept_of_labels {label : String} (labels : Labels label.toList) :
    Render.LabelKept label := by
  intro kind member
  rw [inert_of_harmless labels.toHarmless] at member
  refine ⟨?_, labels.boundary kind member, ?_⟩
  · rintro rfl
    exact labels.endUml member
  · rintro rfl
    exact labels.startUml member

theorem noteText_of_harmless {text : String} (harmless : Harmless text.toList) :
    Render.NoteKept text ∧ noteText text = text := by
  have single : ¬text.toList.contains '\n' = true := by
    simpa using harmless.plain.lineFeed
  rw [Render.NoteKept, noteText, if_neg single, if_neg single, ofList_inert harmless,
    inert_of_harmless harmless]
  exact ⟨harmless.endUml, rfl⟩

/-- The text of a note is a single harmless line, or has two lines or more. -/
theorem IsNoteText.cases {text : String} (isNoteText : IsNoteText text) : Harmless text.toList ∨
    ∃ lines : List (List Char), 2 ≤ lines.length ∧
      text = "\n".intercalate (lines.map String.ofList) ∧
      ∀ line ∈ lines, line ≠ [] ∧ Leaf.BodyLine line := by
  rcases isNoteText with harmless | ⟨lines, rfl, bodies⟩
  · exact .inl harmless
  rcases lines with _ | ⟨first, _ | ⟨second, rest⟩⟩
  · -- No lines or one line give a note that is written on its first line.
    exact .inl labels_nil.toHarmless
  · have alone : "\n".intercalate [first] = first := by
      rw [← String.toList_inj, String.toList_intercalate]
      simp
    rw [alone]
    exact .inl (bodies first List.mem_cons_self).2.toHarmless
  · refine .inr ⟨(first :: second :: rest).map String.toList, by simp, ?_, fun line member => ?_⟩
    · rw [List.map_map, show String.ofList ∘ String.toList = id from
        funext fun line => String.ofList_toList, List.map_id]
    · obtain ⟨source, inside, rfl⟩ := List.mem_map.1 member
      obtain ⟨nonempty, bodyLine⟩ := bodies source inside
      exact ⟨fun none => nonempty (String.toList_eq_nil_iff.1 none), bodyLine⟩

theorem noteText_of_isNoteText {text : String} (isNoteText : IsNoteText text) :
    Render.NoteKept text ∧ noteText text = text := by
  rcases isNoteText.cases with harmless | ⟨lines, two, rfl, each⟩
  · exact noteText_of_harmless harmless
  obtain ⟨several, cut⟩ := Render.lines_joined two fun line member =>
    ⟨(each line member).1, (each line member).2.toInert⟩
  have kept : ∀ line ∈ lines, Render.noteLine line = line := fun line member =>
    Render.noteLine_of_inert (each line member).2.toInert (each line member).2.apostrophe
  have same : lines.map Render.noteLine = lines := by
    rw [List.map_congr_left (g := id), List.map_id]
    exact kept
  have full : lines.filter (! ·.isEmpty) = lines := by
    rw [List.filter_eq_self]
    exact fun line member => by simpa using (each line member).1
  rw [Render.NoteKept, noteText, if_pos several, if_pos several, cut, same, full]
  refine ⟨fun line member => ?_, rfl⟩
  rw [kept line member]
  exact ⟨(each line member).2.endUml, (each line member).2.noEnd⟩

/-- The participants that a step needs to find, apart from those of messages. -/
def Action.targets : Action → List String
  | .activation actor | .deactivation actor => [actor]
  | .note position _ => (Placement.ofPosition position).names
  | _ => []

namespace Action.Fixed

variable {actors : List String} {step : Action}

theorem keeps (fixed : step.Fixed actors) : step.Keeps := by
  cases step with
  | message source target text =>
    rw [Action.Keeps, inert_of_harmless fixed.2]
    exact fixed.2.endUml
  | note position text => exact (noteText_of_isNoteText fixed.2).1
  | alt => exact ⟨labelKept_of_labels fixed.1, labelKept_of_labels fixed.2⟩
  | loop | opt => exact labelKept_of_labels fixed
  | activation | deactivation | par => trivial

theorem readable (fixed : step.Fixed actors) (known : ∀ name ∈ step.targets, name ∈ actors) :
    step.Readable actors := by
  refine ⟨?_, fixed.keeps⟩
  cases step with
  | message source target text => exact fixed.1
  | activation actor | deactivation actor => exact known actor List.mem_cons_self
  | note position text =>
    obtain ⟨-, -, stands⟩ := fixed.1.reads fun name isName => ⟨isName.nonempty, isName.listable⟩
    exact stands known
  | alt | loop | opt | par => trivial

theorem agreeAt (fixed : step.Fixed actors) (known : ∀ name ∈ step.targets, name ∈ actors)
    (named : ∀ name ∈ actors, IsName name) :
    (writtenWords shown).AgreeAt Rewording.same step := by
  have shows : ∀ name ∈ actors, shown name = id name := fun name member => (named name member).shown
  cases step with
  | message source target text =>
    exact ⟨shows source fixed.1.1, shows target fixed.1.2, ofList_inert fixed.2⟩
  | activation actor | deactivation actor => exact shows actor (known actor List.mem_cons_self)
  | note position text =>
    obtain ⟨same, -, stands⟩ := fixed.1.reads fun name isName => ⟨isName.nonempty, isName.listable⟩
    exact ⟨((stands known).named_congr shows).trans same, (noteText_of_isNoteText fixed.2).2⟩
  | alt => exact ⟨ofList_inert fixed.1.toHarmless, ofList_inert fixed.2.toHarmless⟩
  | loop | opt => exact ofList_inert fixed.toHarmless
  | par => exact fun empty => absurd empty fixed

end Action.Fixed

/-! ## Documents of clear sources -/

theorem mem_nodes_of_statements {document : Document} {node : Node}
    (member : node ∈ nodesOfStatements document.statements) : node ∈ document.nodes := by
  obtain ⟨diagrams, span⟩ := document
  rw [Document.nodes, List.mem_cons, List.mem_flatMap]
  right
  rw [Document.statements] at member
  induction diagrams with
  | nil => cases member
  | cons diagram rest ih =>
    rw [List.flatMap_cons, nodesOfStatements_append, List.mem_append] at member
    rcases member with first | later
    · exact ⟨diagram, List.mem_cons_self, List.mem_cons_of_mem _ first⟩
    · obtain ⟨other, inside, within⟩ := ih later
      exact ⟨other, List.mem_cons_of_mem diagram inside, within⟩

theorem settled_of_mem_nodes {document : Document} (settled : Settled document.statements) :
    ∀ node ∈ document.nodes, node.Settled := by
  refine List.forall_mem_cons.2 ⟨trivial, fun node member => ?_⟩
  obtain ⟨diagram, inside, within⟩ := List.mem_flatMap.1 member
  rcases List.mem_cons.1 within with rfl | within
  · exact trivial
  · refine settled_nodes (fun statement among => ?_) node within
    exact settled statement (List.mem_flatMap.2 ⟨diagram, inside, among⟩)

namespace Document

variable {document : Document} (settled : ∀ node ∈ document.nodes, node.Settled)

include settled

theorem isName_declared : ∀ name ∈ document.declared, IsName name := by
  intro name member
  rw [declared_eq, List.mem_filterMap] at member
  obtain ⟨⟨kind, _ | ⟨_ | _⟩⟩, inside, declares⟩ := member <;> cases declares
  exact settled _ inside

theorem isName_resolve : ∀ name, IsName name → IsName (document.nicknames.resolve name) := by
  intro name isName
  rw [Nicknames.resolve]
  cases found : document.nicknames.lookup name with
  | none => exact isName
  | some value =>
    obtain ⟨before, after, cut, -⟩ := List.lookup_eq_some_iff.1 found
    have member : (name, value) ∈ document.nicknames := by
      rw [cut]
      simp
    rw [nicknames_eq, List.mem_reverse, List.mem_filterMap] at member
    obtain ⟨⟨kind, statement⟩, inside, declares⟩ := member
    unfold Node.nickname? at declares
    split at declares
    · rename_i same
      cases declares
      cases same
      exact settled _ inside
    · cases declares

theorem isName_endpoints : ∀ name ∈ document.endpoints, IsName name := by
  intro name member
  rw [endpoints_eq, List.mem_flatMap] at member
  obtain ⟨⟨kind, statement⟩, inside, ends⟩ := member
  unfold Node.endpoints at ends
  split at ends
  · rename_i same
    cases same
    obtain ⟨⟨source, target⟩, -⟩ := settled _ inside
    simp only [List.mem_cons, List.not_mem_nil, or_false] at ends
    rcases ends with rfl | rfl
    · exact source
    · exact target
  · cases ends

theorem isName_actors : ∀ name ∈ document.project.actors.names, IsName name := by
  intro name member
  rcases List.mem_append.1 (mem_ofList.1 member) with declared | named
  · exact isName_declared settled name declared
  · obtain ⟨endpoint, inside, rfl⟩ := List.mem_map.1 named
    exact isName_resolve settled endpoint (isName_endpoints settled endpoint inside)

theorem harmless_title : ∀ title ∈ document.project.title, Harmless title.toList := by
  intro title last
  have member : title ∈ document.titles := List.mem_of_getLast? last
  rw [titles_eq, List.mem_filterMap] at member
  obtain ⟨⟨kind, _ | ⟨_ | _⟩⟩, inside, gives⟩ := member <;> cases gives
  exact settled _ inside

theorem fixed_actions : ∀ step ∈ stepsOf document.project.actions,
    step.Fixed document.project.actors.names := by
  apply fixed_actionsOf (isName_resolve settled)
  intro node member
  have inside := mem_nodes_of_statements member
  refine ⟨settled node inside, fun name ends => mem_ofList.2 (List.mem_append_right _ ?_)⟩
  refine List.mem_map_of_mem ?_
  rw [endpoints_eq]
  exact List.mem_flatMap.2 ⟨node, inside, ends⟩

end Document

namespace Storyboard

theorem shownTitle_of_harmless {title : Option String} (titled : title ≠ some "")
    (harmless : ∀ text ∈ title, Harmless text.toList) : shownTitle title = title := by
  cases title with
  | none => rfl
  | some text =>
    have nonempty : text.toList ≠ [] := fun empty =>
      titled (congrArg some (String.toList_eq_nil_iff.1 empty))
    have same := inert_of_harmless (harmless text rfl)
    simp only [shownTitle, Option.getD_some, same, if_neg nonempty, String.ofList_toList]

theorem endUml_title {title : Option String} (harmless : ∀ text ∈ title, Harmless text.toList) :
    .endUml ∉ Token.kinds (inert (title.getD "").toList) := by
  cases title with
  | none => exact labels_nil.endUml
  | some text =>
    rw [Option.getD_some, inert_of_harmless (harmless text rfl)]
    exact (harmless text rfl).endUml

theorem project_render_of_fixed {board : Storyboard}
    (fixed : ∀ step ∈ stepsOf board.actions, step.Fixed board.actors.names)
    (named : ∀ name ∈ board.actors.names, IsName name)
    (known : ∀ step ∈ stepsOf board.actions, ∀ name ∈ step.targets, name ∈ board.actors.names)
    (titled : board.title ≠ some "") (harmless : ∀ text ∈ board.title, Harmless text.toList) :
    (analyze board.render).issues = [] ∧
      (Document.ofSource board.render).project = ⟨board.actors, board.actions, board.title⟩ := by
  obtain ⟨clean, shows⟩ := project_render board
    (fun step member => (fixed step member).readable (known step member)) (endUml_title harmless)
  refine ⟨clean, ?_⟩
  have same : board.actors.names.map Render.shown = board.actors.names := by
    rw [List.map_congr_left (g := id) fun name member => (named name member).shown, List.map_id]
  rw [shows, same, ofList_names, shownTitle_of_harmless titled harmless,
    Rewording.rewordAll_congr board.actions fun step member =>
      (fixed step member).agreeAt (known step member) named, Rewording.rewordAll_same]

/-- What a clear source shows, its text shows again. -/
theorem ofSource_render (source : String) (clear : Token.Clear source.toList)
    (titled : (ofSource source).title ≠ some "")
    (known : ∀ step ∈ stepsOf (ofSource source).actions, ∀ name ∈ step.targets,
      name ∈ (ofSource source).actors.names) :
    (analyze (ofSource source).render).issues = [] ∧
      ofSource (ofSource source).render = ofSource source := by
  have settled := settled_of_mem_nodes (settled_ofSource clear)
  obtain ⟨clean, shows⟩ := project_render_of_fixed (Document.fixed_actions settled)
    (Document.isName_actors settled) known titled (Document.harmless_title settled)
  refine ⟨clean, ?_⟩
  rw [ofSource, shows]
  rfl

/-- A diagram with a block in a branch of a block, and a note in the other branch. -/
def nested : String :=
  "@startuml\ntitle T\nactor C\nA -> B : x  y\nalt p\nloop 2\nactivate B\nend\nelse q\nnote over C, B : n\nend\n@enduml"

theorem clear_nested : Token.Clear nested.toList where
  quote := by decide +kernel
  comment := by decide +kernel
  blank c member blank := by
    have all : nested.toList.all fun c =>
        !Text.isBlank c || (Token.Lexeme.isSpace c || c == '\n') := by decide +kernel
    simpa [blank] using List.all_eq_true.1 all c member

theorem ofSource_nested : ofSource nested =
    { actors := ⟨["C", "A", "B"], by decide⟩
      actions := [.message "A" "B" "x y",
        .alt "p" [.loop "2" [.activation "B"]] [.note "over C, B" "n"] "q"]
      mode := .gui
      title := some "T" } := by
  decide +kernel

theorem ofSource_render_nested :
    (analyze nested).issues = [] ∧ Token.Clear nested.toList ∧
      (ofSource nested).title ≠ some "" ∧
      (∀ step ∈ stepsOf (ofSource nested).actions, ∀ name ∈ step.targets,
        name ∈ (ofSource nested).actors.names) ∧
      (analyze (ofSource nested).render).issues = [] ∧
      ofSource (ofSource nested).render = ofSource nested := by
  have titled : (ofSource nested).title ≠ some "" := by rw [ofSource_nested]; decide
  have known : ∀ step ∈ stepsOf (ofSource nested).actions, ∀ name ∈ step.targets,
      name ∈ (ofSource nested).actors.names := by
    rw [ofSource_nested]
    decide
  exact ⟨by decide +kernel, clear_nested, titled, known,
    ofSource_render nested clear_nested titled known⟩

end Storyboard

end Lifeline
