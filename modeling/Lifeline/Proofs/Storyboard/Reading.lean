import Lifeline.Proofs.Storyboard.Lines

/-! The text of actions, read as statements that stand for them.

By recursion over an action, its lines read as statements. Projected, they are the action with every
name replaced by what its identifier stands for and every free text made inert. What has to hold of
the action is said step by step: its names are known, and no free text ends what it stands in. -/

set_option autoImplicit false

namespace Lifeline

open Token (IsIdentifier kinds)
open Parsing (Reads ReadsBranches labelText)
open Render (written noteText inert LabelKept NoteKept Placement)

/-! ## What statements tell -/

/-- Whether a node declares nothing, and names none but the given actors. -/
def Node.Quiet (nicknames : Nicknames) (actors : List String) (node : Node) : Prop :=
  match node.statement with
  | some (.participant ..) | some (.title ..) => False
  | some (.message source target ..) =>
    nicknames.resolve source ∈ actors ∧ nicknames.resolve target ∈ actors
  | _ => True

structure Tells (nicknames : Nicknames) (actors : List String) (statements : List Statement)
    (actions : List Action) : Prop where
  projects : actionsOf nicknames statements = actions
  quiet : ∀ node ∈ nodesOfStatements statements, node.Quiet nicknames actors

variable {nicknames : Nicknames} {actors : List String}

theorem actionsOf_append (first second : List Statement) :
    actionsOf nicknames (first ++ second) =
      actionsOf nicknames first ++ actionsOf nicknames second := by
  induction first with
  | nil => rfl
  | cons statement first ih => rw [List.cons_append, actionsOf, ih, actionsOf, List.append_assoc]

theorem nodesOfStatements_append (first second : List Statement) :
    nodesOfStatements (first ++ second) = nodesOfStatements first ++ nodesOfStatements second := by
  induction first with
  | nil => rfl
  | cons statement first ih =>
    rw [List.cons_append, nodesOfStatements, ih, nodesOfStatements, List.append_assoc]

theorem Tells.nil : Tells nicknames actors [] [] where
  projects := rfl
  quiet := by simp [nodesOfStatements]

theorem Tells.append {first second : List Statement} {actions later : List Action}
    (one : Tells nicknames actors first actions) (two : Tells nicknames actors second later) :
    Tells nicknames actors (first ++ second) (actions ++ later) where
  projects := by rw [actionsOf_append, one.projects, two.projects]
  quiet := by
    intro node member
    rw [nodesOfStatements_append] at member
    exact (List.mem_append.1 member).elim (one.quiet node) (two.quiet node)

theorem Tells.one {statement : Statement} {action : Action}
    (stands : statement.action? nicknames = some action)
    (quiet : ∀ node ∈ statement.nodes, node.Quiet nicknames actors) :
    Tells nicknames actors [statement] [action] where
  projects := by rw [actionsOf, stands]; rfl
  quiet := by simpa [nodesOfStatements] using quiet

structure TellsBranches (nicknames : Nicknames) (actors : List String) (branches : List Branch)
    (actions : List (List Action)) : Prop where
  projects : branchActions nicknames branches = actions
  quiet : ∀ node ∈ nodesOfBranches branches, node.Quiet nicknames actors

theorem TellsBranches.nil : TellsBranches nicknames actors [] [] where
  projects := rfl
  quiet := by simp [nodesOfBranches]

theorem quiet_branch : Node.Quiet nicknames actors ⟨.branch, none⟩ := trivial

theorem TellsBranches.cons {branch : Branch} {branches : List Branch} {actions : List Action}
    {later : List (List Action)} (first : Tells nicknames actors branch.statements actions)
    (rest : TellsBranches nicknames actors branches later) :
    TellsBranches nicknames actors (branch :: branches) (actions :: later) := by
  obtain ⟨condition, statements, span⟩ := branch
  refine ⟨by rw [branchActions, rest.projects, ← first.projects]; rfl, fun node member => ?_⟩
  simp only [nodesOfBranches, Branch.nodes, List.mem_append, List.mem_cons] at member
  rcases member with (rfl | member) | member
  · exact quiet_branch
  · exact first.quiet node member
  · exact rest.quiet node member

/-- Branches after the first one of an alternative, which stand for what happens otherwise. -/
structure TellsElse (nicknames : Nicknames) (actors : List String) (branches : List Branch)
    (actions : List Action) (otherwise : String) : Prop where
  projects : ∀ condition statements span,
    alternativeAction? nicknames (.mk condition statements span :: branches) =
      some (.alt condition (actionsOf nicknames statements) actions otherwise)
  quiet : ∀ node ∈ nodesOfBranches branches, node.Quiet nicknames actors

theorem TellsElse.none : TellsElse nicknames actors [] [] "" where
  projects condition statements span := by rw [alternativeAction?]
  quiet := by simp [nodesOfBranches]

theorem TellsElse.last {branch : Branch} {actions : List Action}
    (tells : Tells nicknames actors branch.statements actions) :
    TellsElse nicknames actors [branch] actions branch.condition := by
  obtain ⟨condition, statements, span⟩ := branch
  refine ⟨fun _ _ _ => ?_, fun node member => ?_⟩
  · rw [alternativeAction?, ← tells.projects]
    rfl
  · simp only [nodesOfBranches, Branch.nodes, List.mem_append, List.mem_cons, List.not_mem_nil,
      or_false] at member
    rcases member with rfl | member
    · exact quiet_branch
    · exact tells.quiet node member

/-- A third branch and later ones are an alternative in the false branch. -/
theorem TellsElse.chain {branch : Branch} {branches : List Branch}
    {whenTrue whenFalse : List Action} {otherwise : String}
    (tells : Tells nicknames actors branch.statements whenTrue)
    (rest : TellsElse nicknames actors branches whenFalse otherwise) (more : branches ≠ []) :
    TellsElse nicknames actors (branch :: branches)
      [.alt branch.condition whenTrue whenFalse otherwise] "" := by
  obtain ⟨condition, statements, span⟩ := branch
  -- Only behind a third branch are the later ones an alternative of their own.
  obtain ⟨third, further, rfl⟩ := List.exists_cons_of_ne_nil more
  refine ⟨fun _ _ _ => ?_, fun node member => ?_⟩
  · rw [alternativeAction?, rest.projects, ← tells.projects]
    rfl
  · simp only [nodesOfBranches, Branch.nodes, List.mem_append, List.mem_cons] at member
    rcases member with (rfl | member) | member
    · exact quiet_branch
    · exact tells.quiet node member
    · exact rest.quiet node (by simpa [nodesOfBranches] using member)

/-! ## Actions -/

/-- Identifiers for known names, and what the identifiers are resolved to. -/
structure Agreed (known : List String) (aliases : Aliases) (nicknames : Nicknames)
    (call : String → String) : Prop where
  identifier : ∀ name ∈ known, IsIdentifier (aliases.get name)
  resolve : ∀ name ∈ known, nicknames.resolve (aliases.get name) = call name

/-- A storyboard as its text shows it, under the names that it calls its actors by. -/
def writtenWords (call : String → String) : Rewording where
  name := call
  position position := (Placement.ofPosition position).named call
  text text := String.ofList (inert text.toList)
  note := noteText
  unbranched := [[]]

def Action.Names (known : List String) : Action → Prop
  | .message source target _ => source ∈ known ∧ target ∈ known
  | .activation actor | .deactivation actor => actor ∈ known
  | .note position _ => (Placement.ofPosition position).Stands known
  | .alt .. | .loop .. | .par _ | .opt .. => True

/-- Whether no free text of a step ends what it stands in. -/
def Action.Keeps : Action → Prop
  | .message _ _ text => .endUml ∉ kinds (inert text.toList)
  | .activation _ | .deactivation _ | .par _ => True
  | .note _ text => NoteKept text
  | .alt condition _ _ otherwise => LabelKept condition ∧ LabelKept otherwise
  | .loop condition _ | .opt condition _ => LabelKept condition

instance : (step : Action) → Decidable step.Keeps
  | .message _ _ text => inferInstanceAs (Decidable (.endUml ∉ kinds (inert text.toList)))
  | .activation _ | .deactivation _ | .par _ => .isTrue trivial
  | .note _ text => inferInstanceAs (Decidable (NoteKept text))
  | .alt condition _ _ otherwise =>
    inferInstanceAs (Decidable (LabelKept condition ∧ LabelKept otherwise))
  | .loop condition _ | .opt condition _ => inferInstanceAs (Decidable (LabelKept condition))

def Action.Readable (known : List String) (step : Action) : Prop :=
  step.Names known ∧ step.Keeps

theorem written_block (depth : Nat) (keyword label : String) (body : List Render.Line) :
    written (⟨depth, Render.labelled keyword label⟩ :: body ++ [⟨depth, "end"⟩]) =
      List.replicate (2 * depth) ' ' ++ (keyword.toList ++ (labelText (inert label.toList) ++ '\n' ::
        (written body ++ (List.replicate (2 * depth) ' ' ++ ("end".toList ++ ['\n']))))) := by
  rw [List.cons_append, Render.written_cons, Render.written_append, Render.written_cons,
    Render.labelled_toList, List.append_assoc]
  rfl

theorem written_else (depth : Nat) (label : String) (body : List Render.Line) :
    written (⟨depth, Render.labelled "else" label⟩ :: body) =
      List.replicate (2 * depth) ' ' ++ ("else".toList ++ (labelText (inert label.toList) ++
        '\n' :: written body)) := by
  rw [Render.written_cons, Render.labelled_toList, List.append_assoc]

theorem labelled_nil (keyword : String) : Render.labelled keyword "" = keyword := rfl

variable {known : List String} {aliases : Aliases} {call : String → String}

theorem tells_message (agreed : Agreed known aliases nicknames call) {source target : String}
    (sender : source ∈ known) (receiver : target ∈ known) (text : String) (span : Span) :
    Tells nicknames (known.map call)
      [.message (aliases.get source) (aliases.get target) text "->" false false span]
      [.message (call source) (call target) text] := by
  apply Tells.one
  · rw [Statement.action?, agreed.resolve source sender, agreed.resolve target receiver]
    exact if_neg (by decide)
  · intro node member
    simp only [Statement.nodes, List.mem_singleton] at member
    subst member
    refine ⟨?_, ?_⟩
    · rw [agreed.resolve source sender]
      exact List.mem_map_of_mem sender
    · rw [agreed.resolve target receiver]
      exact List.mem_map_of_mem receiver

theorem tells_onName (agreed : Agreed known aliases nicknames call)
    (statement : String → Span → Statement) (action : String → Action)
    (projects : ∀ target span,
      (statement target span).action? nicknames = some (action (nicknames.resolve target)))
    (quiet : ∀ target span, ∀ node ∈ (statement target span).nodes, node.Quiet nicknames actors)
    {actor : String} (member : actor ∈ known) (span : Span) :
    Tells nicknames actors [statement (aliases.get actor) span] [action (call actor)] := by
  apply Tells.one
  · rw [projects, agreed.resolve actor member]
  · exact quiet _ span

theorem tells_note (agreed : Agreed known aliases nicknames call) {placement : Placement}
    (stands : placement.Stands known) {target : Option String} {side : NoteSide}
    (placed : notePosition nicknames side target =
      placement.named fun name => nicknames.resolve (aliases.get name)) (text : String)
    (span : Span) :
    Tells nicknames actors [.note text target side span] [.note (placement.named call) text] := by
  apply Tells.one
  · rw [Statement.action?, placed, stands.named_congr agreed.resolve]
  · exact List.forall_mem_singleton.2 trivial

theorem tells_block (statement : String → List Statement → Span → Statement)
    (action : String → List Action → Action)
    (projects : ∀ condition inner span, (statement condition inner span).action? nicknames =
      some (action condition (actionsOf nicknames inner)))
    (quiet : ∀ condition inner span, (∀ node ∈ nodesOfStatements inner, node.Quiet nicknames actors) →
      ∀ node ∈ (statement condition inner span).nodes, node.Quiet nicknames actors)
    {inner : List Statement} {actions : List Action} (tells : Tells nicknames actors inner actions)
    (condition : String) (span : Span) :
    Tells nicknames actors [statement condition inner span] [action condition actions] := by
  apply Tells.one
  · rw [projects, tells.projects]
  · exact quiet _ _ _ tells.quiet

theorem tells_alternative {branch : Branch} {branches : List Branch} {condition : String}
    {span : Span} {whenTrue whenFalse : List Action} {otherwise : String}
    (tells : Tells nicknames actors branch.statements whenTrue)
    (rest : TellsElse nicknames actors branches whenFalse otherwise) :
    Tells nicknames actors [.alternative condition (branch :: branches) span]
      [.alt branch.condition whenTrue whenFalse otherwise] := by
  obtain ⟨condition, statements, span'⟩ := branch
  apply Tells.one
  · rw [Statement.action?, rest.projects, ← tells.projects]
    rfl
  · refine List.forall_mem_cons.2 ⟨trivial, fun node member => ?_⟩
    simp only [nodesOfBranches, Branch.nodes, List.mem_append, List.mem_cons] at member
    rcases member with (rfl | member) | member
    · exact quiet_branch
    · exact tells.quiet node member
    · exact rest.quiet node member

theorem tells_parallel {branches : List Branch} {span : Span} {actions : List (List Action)}
    (tells : TellsBranches nicknames actors branches actions) :
    Tells nicknames actors [.parallel branches span] [.par actions] := by
  apply Tells.one
  · rw [Statement.action?, tells.projects]
  · exact List.forall_mem_cons.2 ⟨trivial, tells.quiet⟩

/-! ## Actions from their lines -/

/-- Whether an action is read back from its lines, under the names that they call its actors by. -/
def ReadBack (known : List String) (aliases : Aliases) (nicknames : Nicknames) (call : String → String)
    (depth : Nat) (action : Action) : Prop :=
  Reads (written (Render.actionLines aliases depth action)) fun statements =>
    Tells nicknames (known.map call) statements [action.reword (writtenWords call)]

theorem reads_messageAction (agreed : Agreed known aliases nicknames call)
    {source target text : String} (readable : (Action.message source target text).Readable known)
    (depth : Nat) : ReadBack known aliases nicknames call depth (.message source target text) := by
  obtain ⟨⟨sender, receiver⟩, kept⟩ := readable
  refine (Render.reads_message (agreed.identifier source sender)
    (agreed.identifier target receiver) kept depth).mono ?_
  rintro statements ⟨_, rfl, span, rfl⟩
  exact tells_message agreed sender receiver _ span

theorem reads_actorAction (agreed : Agreed known aliases nicknames call) (keyword missing : String)
    (statement : String → Span → Statement) (action : String → Action) {kind : Token.Kind}
    (isWord : Token.IsWord keyword.toList) (isKind : Token.wordKind keyword.toList = kind)
    (starts : Parsing.startsLeaf kind = true)
    (leaf : ∀ token stream, token.kind = kind →
      Parsing.leaf token stream = Leaf.onName missing statement token stream)
    (projects : ∀ target span,
      (statement target span).action? nicknames = some (action (nicknames.resolve target)))
    (quiet : ∀ target span, ∀ node ∈ (statement target span).nodes, node.Quiet nicknames actors)
    {actor line : String} (member : actor ∈ known)
    (cut : line.toList = keyword.toList ++ ' ' :: (aliases.get actor).toList) (depth : Nat) :
    Reads (written [⟨depth, line⟩]) fun statements =>
      Tells nicknames actors statements [action (call actor)] := by
  refine (Render.reads_onName missing statement keyword isWord isKind starts leaf
    (agreed.identifier actor member) cut depth).mono ?_
  rintro statements ⟨_, rfl, span, rfl⟩
  exact tells_onName agreed statement action projects quiet member span

theorem reads_noteAction (agreed : Agreed known aliases nicknames call)
    {position : String} {text : String} (readable : (Action.note position text).Readable known)
    (depth : Nat) : ReadBack known aliases nicknames call depth (.note position text) := by
  obtain ⟨stands, kept⟩ := readable
  refine (Render.reads_note agreed.identifier stands kept depth).mono ?_
  rintro statements ⟨_, rfl, target, side, span, rfl, placed⟩
  exact tells_note agreed stands (placed nicknames) _ span

theorem reads_blockAction (block : Block) (keyword : String)
    (statement : String → List Statement → Span → Statement) (action : String → List Action → Action)
    (closes : ∀ opener label before inner upTo reached,
      (Parsing.opened block opener label before).close inner upTo reached =
        statement (String.ofList label) inner.reverse ((Span.ofToken opener).upTo reached))
    (supported : block.isUnsupported = false) (isWord : Token.IsWord keyword.toList)
    (kind : Token.wordKind keyword.toList = .opener block)
    (projects : ∀ condition inner span, (statement condition inner span).action? nicknames =
      some (action condition (actionsOf nicknames inner)))
    (quiet : ∀ condition inner span, (∀ node ∈ nodesOfStatements inner, node.Quiet nicknames actors) →
      ∀ node ∈ (statement condition inner span).nodes, node.Quiet nicknames actors)
    {condition : String} (kept : LabelKept condition) {body : List Render.Line} {told : List Action}
    (inner : Reads (written body) fun statements => Tells nicknames actors statements told)
    (depth : Nat) :
    Reads (written (⟨depth, Render.labelled keyword condition⟩ :: body ++ [⟨depth, "end"⟩]))
      fun statements => Tells nicknames actors statements
        [action (String.ofList (inert condition.toList)) told] := by
  rw [written_block]
  apply Reads.indent
  refine (Parsing.reads_block block statement closes supported isWord kind
    (Render.labels_inert kept) _ inner).mono ?_
  rintro statements ⟨inner, span, tells, rfl⟩
  exact tells_block statement action projects quiet tells _ span

theorem reads_altAction {condition otherwise : String} (kept : LabelKept condition) {depth : Nat}
    {whenTrue whenFalse : List Action}
    (first : Reads (written (Render.actionsLines aliases (depth + 1) whenTrue)) fun statements =>
      Tells nicknames (known.map call) statements (rewordAll (writtenWords call) whenTrue))
    (later : ReadsBranches (written (Render.elseLines aliases depth otherwise whenFalse))
      fun branches =>
        TellsElse nicknames (known.map call) branches (rewordAll (writtenWords call) whenFalse)
          (String.ofList (inert otherwise.toList)) ∧
        (whenFalse ≠ [] ∨ Render.isBlankLabel otherwise = false → branches ≠ [])) :
    ReadBack known aliases nicknames call depth (.alt condition whenTrue whenFalse otherwise) := by
  rw [ReadBack, Render.actionLines, List.cons_append, written_block, Render.written_append,
    List.append_assoc]
  apply Reads.indent
  refine (Parsing.reads_alternative (Render.labels_inert kept) _ first later).mono ?_
  rintro statements ⟨_, branch, more, span, label, tells, ⟨rest, -⟩, rfl⟩
  have text : branch.condition = (writtenWords call).text condition := label
  rw [Action.reword, ← text]
  exact tells_alternative tells rest

/-- A parallel block has a branch even if there is none to write. -/
theorem reads_parNone (depth : Nat) : ReadBack known aliases nicknames call depth (.par []) := by
  rw [ReadBack, Render.actionLines, ← labelled_nil "par", written_block]
  apply Reads.indent
  refine (Parsing.reads_parallel _ (Reads.nil rfl) (ReadsBranches.nil rfl)).mono ?_
  rintro statements ⟨branch, more, span, none, rfl, rfl⟩
  exact tells_parallel (TellsBranches.cons (none ▸ Tells.nil) TellsBranches.nil)

theorem reads_parAction {branch : List Action} {rest : List (List Action)} {depth : Nat}
    (first : Reads (written (Render.actionsLines aliases (depth + 1) branch)) fun statements =>
      Tells nicknames (known.map call) statements (rewordAll (writtenWords call) branch))
    (later : ReadsBranches (written (Render.laterBranchLines aliases depth rest)) fun later =>
      TellsBranches nicknames (known.map call) later (rewordBranches (writtenWords call) rest)) :
    ReadBack known aliases nicknames call depth (.par (branch :: rest)) := by
  rw [ReadBack, Render.actionLines, ← labelled_nil "par", written_block, Render.branchLines,
    Render.written_append, List.append_assoc]
  apply Reads.indent
  refine (Parsing.reads_parallel _ first later).mono ?_
  rintro statements ⟨branch, more, span, tells, rest, rfl⟩
  exact tells_parallel (TellsBranches.cons tells rest)

theorem reads_plainElse {label : String} (kept : LabelKept label) {depth : Nat} {action : Action}
    {rest : List Action}
    (first : Reads (written (Render.actionLines aliases (depth + 1) action)) fun statements =>
      Tells nicknames actors statements [action.reword (writtenWords call)])
    (later : Reads (written (Render.actionsLines aliases (depth + 1) rest)) fun statements =>
      Tells nicknames actors statements (rewordAll (writtenWords call) rest)) :
    ReadsBranches (written (⟨depth, Render.labelled "else" label⟩ ::
        Render.actionLines aliases (depth + 1) action ++
          Render.actionsLines aliases (depth + 1) rest)) fun branches =>
      TellsElse nicknames actors branches (rewordAll (writtenWords call) (action :: rest))
        (String.ofList (inert label.toList)) ∧
      (action :: rest ≠ [] ∨ Render.isBlankLabel label = false → branches ≠ []) := by
  have body : Reads _ fun statements =>
      Tells nicknames actors statements (rewordAll (writtenWords call) (action :: rest)) :=
    first.append later fun _ _ one two => one.append two
  rw [List.cons_append, written_else, Render.written_append]
  refine (ReadsBranches.one _ (Render.labels_inert kept) body).mono ?_
  rintro branches ⟨branch, rfl, same, tells⟩
  exact ⟨same ▸ TellsElse.last tells, by simp⟩

/-- A false branch that goes on as further branches. -/
theorem reads_chainedElse {label : String} (blank : Render.isBlankLabel label = true)
    {condition otherwise : String} (kept : LabelKept condition) {depth : Nat}
    {whenTrue whenFalse : List Action}
    (goesOn : whenFalse ≠ [] ∨ Render.isBlankLabel otherwise = false)
    (first : Reads (written (Render.actionsLines aliases (depth + 1) whenTrue)) fun statements =>
      Tells nicknames actors statements (rewordAll (writtenWords call) whenTrue))
    (later : ReadsBranches (written (Render.elseLines aliases depth otherwise whenFalse))
      fun branches =>
        TellsElse nicknames actors branches (rewordAll (writtenWords call) whenFalse)
          (String.ofList (inert otherwise.toList)) ∧
        (whenFalse ≠ [] ∨ Render.isBlankLabel otherwise = false → branches ≠ [])) :
    ReadsBranches (written (⟨depth, Render.labelled "else" condition⟩ ::
        Render.actionsLines aliases (depth + 1) whenTrue ++
          Render.elseLines aliases depth otherwise whenFalse)) fun branches =>
      TellsElse nicknames actors branches
        (rewordAll (writtenWords call) [.alt condition whenTrue whenFalse otherwise])
        (String.ofList (inert label.toList)) ∧ branches ≠ [] := by
  rw [List.cons_append, written_else, Render.written_append]
  refine (ReadsBranches.cons _ (Render.labels_inert kept) first later).mono ?_
  rintro branches ⟨branch, more, rfl, same, tells, rest, some⟩
  have text : branch.condition = (writtenWords call).text condition := same
  rw [Render.inert_of_isBlankLabel blank, rewordAll, Action.reword, ← text]
  exact ⟨TellsElse.chain tells rest (some goesOn), by simp⟩

mutual

theorem reads_action (agreed : Agreed known aliases nicknames call) : (action : Action) →
    (∀ step ∈ action.steps, step.Readable known) → (depth : Nat) →
    ReadBack known aliases nicknames call depth action
  | .message .., readable, depth => reads_messageAction agreed (readable _ (Action.mem_steps _)) depth
  | .activation _, readable, depth =>
    reads_actorAction agreed "activate" _ .activation .activation (by decide) rfl rfl
      (fun _ _ kind => by rw [Parsing.leaf, kind]; rfl) (fun _ _ => rfl)
      (fun _ _ => List.forall_mem_singleton.2 trivial) (readable _ (Action.mem_steps _)).1
      (String.toList_append ..) depth
  | .deactivation _, readable, depth =>
    reads_actorAction agreed "deactivate" _ .deactivation .deactivation (by decide) rfl rfl
      (fun _ _ kind => by rw [Parsing.leaf, kind]; rfl) (fun _ _ => rfl)
      (fun _ _ => List.forall_mem_singleton.2 trivial) (readable _ (Action.mem_steps _)).1
      (String.toList_append ..) depth
  | .note .., readable, depth => reads_noteAction agreed (readable _ (Action.mem_steps _)) depth
  | .alt condition whenTrue whenFalse otherwise, readable, depth => by
    obtain ⟨-, kept, kept'⟩ := readable _ (Action.mem_steps _)
    simp only [Action.steps, List.mem_cons, List.mem_append] at readable
    exact reads_altAction kept
      (reads_actions agreed whenTrue (fun step member => readable step (.inr (.inl member))) _)
      (reads_else agreed whenFalse (fun step member => readable step (.inr (.inr member))) kept' _)
  | .loop condition actions, readable, depth => by
    have kept : LabelKept condition := (readable _ (Action.mem_steps _)).2
    simp only [Action.steps, List.mem_cons] at readable
    have inner := reads_actions agreed actions
      (fun step member => readable step (.inr member)) (depth + 1)
    exact reads_blockAction .loop "loop" .loop .loop (fun _ _ _ _ _ _ => rfl) rfl (by decide) rfl
      (fun _ _ _ => rfl) (fun _ _ _ quiet => List.forall_mem_cons.2 ⟨trivial, quiet⟩) kept inner depth
  | .opt condition actions, readable, depth => by
    have kept : LabelKept condition := (readable _ (Action.mem_steps _)).2
    simp only [Action.steps, List.mem_cons] at readable
    have inner := reads_actions agreed actions
      (fun step member => readable step (.inr member)) (depth + 1)
    exact reads_blockAction .opt "opt" .optional .opt (fun _ _ _ _ _ _ => rfl) rfl (by decide) rfl
      (fun _ _ _ => rfl) (fun _ _ _ quiet => List.forall_mem_cons.2 ⟨trivial, quiet⟩) kept inner depth
  | .par [], _, depth => reads_parNone depth
  | .par (branch :: rest), readable, depth => by
    simp only [Action.steps, stepsOfBranches, List.mem_cons, List.mem_append] at readable
    exact reads_parAction
      (reads_actions agreed branch (fun step member => readable step (.inr (.inl member))) _)
      (reads_laterBranches agreed rest (fun step member => readable step (.inr (.inr member))) _)

theorem reads_actions (agreed : Agreed known aliases nicknames call) : (actions : List Action) →
    (∀ step ∈ stepsOf actions, step.Readable known) → (depth : Nat) →
    Reads (written (Render.actionsLines aliases depth actions)) fun statements =>
      Tells nicknames (known.map call) statements (rewordAll (writtenWords call) actions)
  | [], _, _ => Reads.nil Tells.nil
  | action :: rest, readable, depth => by
    simp only [stepsOf, List.mem_append] at readable
    rw [Render.actionsLines, Render.written_append]
    exact (reads_action agreed action (fun step member => readable step (.inl member)) depth).append
      (reads_actions agreed rest (fun step member => readable step (.inr member)) depth)
      fun _ _ one two => one.append two

theorem reads_else (agreed : Agreed known aliases nicknames call) : (actions : List Action) →
    (∀ step ∈ stepsOf actions, step.Readable known) → {label : String} → LabelKept label →
    (depth : Nat) →
    ReadsBranches (written (Render.elseLines aliases depth label actions)) fun branches =>
      TellsElse nicknames (known.map call) branches (rewordAll (writtenWords call) actions)
        (String.ofList (inert label.toList)) ∧
      (actions ≠ [] ∨ Render.isBlankLabel label = false → branches ≠ [])
  | [], _, label, kept, depth => by
    rw [Render.elseLines]
    split
    · rename_i blank
      rw [Render.inert_of_isBlankLabel blank]
      exact ReadsBranches.nil ⟨TellsElse.none, by simp [blank]⟩
    · rw [written_else]
      refine (ReadsBranches.one _ (Render.labels_inert kept) (Reads.nil rfl)).mono ?_
      rintro branches ⟨branch, rfl, same, none⟩
      exact ⟨same ▸ TellsElse.last (none ▸ Tells.nil), by simp⟩
  | action :: rest, readable, label, kept, depth => by
    simp only [stepsOf, List.mem_append] at readable
    have one := reads_action agreed action (fun step member => readable step (.inl member))
      (depth + 1)
    have more := reads_actions agreed rest (fun step member => readable step (.inr member))
      (depth + 1)
    have plain := reads_plainElse kept one more
    -- Only a single alternative under a blank label can go on as further branches.
    cases action with
    | alt condition whenTrue whenFalse otherwise =>
      cases rest with
      | cons => exact plain
      | nil =>
        rw [Render.elseLines]
        split
        · rename_i chained
          rw [Bool.and_eq_true, Bool.or_eq_true, Bool.not_eq_true', Bool.not_eq_true',
            List.isEmpty_eq_false_iff] at chained
          obtain ⟨-, kept', kept''⟩ := readable _ (.inl (Action.mem_steps _))
          simp only [Action.steps, List.mem_cons, List.mem_append] at readable
          have first := reads_actions agreed whenTrue
            (fun step member => readable step (.inl (.inr (.inl member)))) (depth + 1)
          have later := reads_else agreed whenFalse
            (fun step member => readable step (.inl (.inr (.inr member)))) kept'' depth
          refine (reads_chainedElse chained.1 kept' chained.2 first later).mono ?_
          exact fun branches tells => ⟨tells.1, fun _ => tells.2⟩
        · simpa [Render.actionsLines] using plain
    | _ => exact plain

theorem reads_laterBranches (agreed : Agreed known aliases nicknames call) :
    (branches : List (List Action)) →
    (∀ step ∈ stepsOfBranches branches, step.Readable known) → (depth : Nat) →
    ReadsBranches (written (Render.laterBranchLines aliases depth branches)) fun later =>
      TellsBranches nicknames (known.map call) later (rewordBranches (writtenWords call) branches)
  | [], _, _ => ReadsBranches.nil TellsBranches.nil
  | branch :: rest, readable, depth => by
    simp only [stepsOfBranches, List.mem_append] at readable
    have first := reads_actions agreed branch
      (fun step member => readable step (.inl member)) (depth + 1)
    have later := reads_laterBranches agreed rest
      (fun step member => readable step (.inr member)) depth
    rw [Render.laterBranchLines, List.cons_append, ← labelled_nil "else", written_else,
      Render.written_append]
    refine (ReadsBranches.cons _ labels_nil first later).mono ?_
    rintro branches ⟨branch, more, rfl, -, tells, rest⟩
    exact TellsBranches.cons tells rest

end

end Lifeline
