import Lifeline.Proofs.Source.Extract
import Lifeline.Proofs.Source.Searching
import Lifeline.Proofs.Storyboard.Legible
import Lifeline.Proofs.Storyboard.RoundTrip

/-! Flat storyboards: actors, and messages between them.

The text of a flat storyboard has one line for each actor and each message. The search in its lines
finds the storyboard again, as the reading of the text does, where all identifiers are words to the
search. -/

set_option autoImplicit false

namespace Lifeline

open Render (inert messageLine actorLine written)
open Token (IsIdentifier)

def Action.IsPlainMessage (declared : List String) : Action → Prop
  | .message source target text =>
    (source ∈ declared ∧ target ∈ declared) ∧ text ≠ "" ∧ inert text.toList = text.toList ∧
      ¬HoldsEnd text
  | .activation _ | .deactivation _ | .note .. | .alt .. | .loop .. | .par _ | .opt .. => False

instance (declared : List String) : (action : Action) → Decidable (action.IsPlainMessage declared)
  | .message .. => inferInstanceAs (Decidable (_ ∧ _))
  | .activation _ | .deactivation _ | .note .. | .alt .. | .loop .. | .par _ | .opt .. => .isFalse id

theorem Action.IsPlainMessage.eq {declared : List String} {action : Action}
    (plain : action.IsPlainMessage declared) : ∃ source target text,
      action = .message source target text ∧ (source ∈ declared ∧ target ∈ declared) ∧ text ≠ "" ∧
        inert text.toList = text.toList ∧ ¬HoldsEnd text := by
  cases action with
  | message source target text => exact ⟨source, target, text, rfl, plain⟩
  | _ => exact absurd plain id

theorem stepsOf_plainMessages {declared : List String} {actions : List Action}
    (plain : ∀ action ∈ actions, action.IsPlainMessage declared) : stepsOf actions = actions := by
  induction actions with
  | nil => rfl
  | cons action rest ih =>
    obtain ⟨first, later⟩ := List.forall_mem_cons.1 plain
    obtain ⟨source, target, text, rfl, -⟩ := first.eq
    have steps : (Action.message source target text).steps = [.message source target text] := by
      simp [Action.steps]
    rw [stepsOf, ih later, steps, List.singleton_append]

namespace Storyboard

/-- A storyboard of actors and messages that its text shows as it is. -/
structure Flat (board : Storyboard) : Prop where
  untitled : board.title = none
  named : ∀ name ∈ board.actors.names, name ≠ ""
  collapsed : ∀ name ∈ board.actors.names, Text.collapse name.toList = name.toList
  unquoted : ∀ name ∈ board.actors.names, '"' ∉ name.toList
  plain : ∀ action ∈ board.actions, action.IsPlainMessage board.actors.names

variable {board : Storyboard}

/-! ## The reading of the text -/

theorem Flat.shown (flat : board.Flat) : ∀ name ∈ board.actors.names, Render.shown name = name := by
  intro name member
  rw [Render.shown, flat.collapsed name member,
    Render.withoutQuotes_of_not_mem (flat.unquoted name member), String.ofList_toList]

theorem Flat.readable (flat : board.Flat) :
    ∀ step ∈ board.actions, step.Readable board.actors.names := by
  intro step member
  obtain ⟨source, target, text, rfl, declared, -, -, keepsOpen⟩ := (flat.plain step member).eq
  exact ⟨declared, endUml_inert keepsOpen⟩

theorem Flat.agreeAt (flat : board.Flat) :
    ∀ step ∈ board.actions, (writtenWords Render.shown).AgreeAt .same step := by
  intro step member
  obtain ⟨source, target, text, rfl, declared, -, same, -⟩ := (flat.plain step member).eq
  refine ⟨flat.shown source declared.1, flat.shown target declared.2, ?_⟩
  change String.ofList (inert text.toList) = text
  rw [same, String.ofList_toList]

theorem Flat.project_ofSource (flat : board.Flat) :
    (Document.ofSource board.render).project =
      { actors := board.actors, actions := board.actions, title := none } := by
  have steps := stepsOf_plainMessages flat.plain
  have titleOpen : .endUml ∉ Token.kinds (inert (board.title.getD "").toList) := by
    apply endUml_inert
    rw [flat.untitled]
    decide
  obtain ⟨-, shows⟩ := project_render board (steps.symm ▸ flat.readable) titleOpen
  rw [shows, List.map_congr_left (g := id) flat.shown, List.map_id, ofList_names,
    Rewording.rewordAll_congr board.actions (steps.symm ▸ flat.agreeAt), Rewording.rewordAll_same,
    flat.untitled]
  rfl

end Storyboard

/-! ## The lines of the text -/

namespace Render

/-- A line that is not indented and whose only blanks are spaces. -/
structure Line.Flush (line : Line) : Prop where
  depth : line.depth = 0
  spaces : ∀ c ∈ line.text.toList, Text.isBlank c = true → c = ' '

theorem spaces_of_all {text : List Char}
    (all : text.all (fun c => !Text.isBlank c || c == ' ') = true) :
    ∀ c ∈ text, Text.isBlank c = true → c = ' ' := by
  intro c member blank
  simpa [blank] using List.all_eq_true.1 all c member

theorem lines_written {lines : List Line} (flush : ∀ line ∈ lines, line.Flush)
    (trail : List Char) : Text.lines (written lines ++ trail) =
      lines.map (·.text.toList) ++ Text.lines trail := by
  induction lines with
  | nil => rfl
  | cons line rest ih =>
    obtain ⟨first, later⟩ := List.forall_mem_cons.1 flush
    obtain ⟨depth, text⟩ := line
    obtain ⟨rfl, spaces⟩ := first
    have noFeed : '\n' ∉ text.toList := fun feed => absurd (spaces _ feed (by decide)) (by decide)
    have noReturn : '\r' ∉ text.toList := fun cr => absurd (spaces _ cr (by decide)) (by decide)
    have cut : written (⟨0, text⟩ :: rest) ++ trail =
        text.toList ++ '\n' :: (written rest ++ trail) := by
      rw [written_cons, List.append_assoc, List.append_assoc]
      rfl
    rw [cut, Text.lines_append_cons noFeed noReturn, ih later, List.map_cons, List.cons_append]

theorem toList_actorLine (aliases : Aliases) (name : String) :
    (actorLine aliases name).text.toList = "actor \"".toList ++
      ((shown name).toList ++ '"' :: (" as ".toList ++ (aliases.get name).toList)) := by
  simp [actorLine, shown]

theorem toList_messageLine {text : List Char} (some : inert text ≠ []) (source target : String) :
    (messageLine source target text).toList =
      source.toList ++ (" -> ".toList ++ (target.toList ++ (" : ".toList ++ inert text))) := by
  simp [messageLine, some]

theorem inert_ne_nil {text : String} (same : inert text.toList = text.toList) (some : text ≠ "") :
    inert text.toList ≠ [] := fun none => some (String.toList_eq_nil_iff.1 (same.symm.trans none))

theorem spaces_of_isIdentifier {short : String} (identifier : IsIdentifier short) :
    ∀ c ∈ short.toList, Text.isBlank c = true → c = ' ' := by
  intro c member blank
  rw [Token.isBlank_of_isIdentifierChar (identifier.1.2 c member)] at blank
  cases blank

theorem flush_actorLine {aliases : Aliases} {name : String}
    (identifier : IsIdentifier (aliases.get name)) : (actorLine aliases name).Flush where
  depth := rfl
  spaces := by
    have spaced := spaced_withoutQuotes (Text.spaced_collapse name.toList)
    have shown_spaces : ∀ c ∈ (shown name).toList, Text.isBlank c = true → c = ' ' := by
      rw [shown, String.toList_ofList]
      exact fun c => spaced.eq_space
    rw [toList_actorLine]
    simp only [List.forall_mem_append, List.forall_mem_cons]
    exact ⟨spaces_of_all (by decide), shown_spaces, by decide, spaces_of_all (by decide),
      spaces_of_isIdentifier identifier⟩

theorem flush_messageLine {source target : String} (sender : IsIdentifier source)
    (receiver : IsIdentifier target) {text : List Char} (some : inert text ≠ []) :
    Line.Flush ⟨0, messageLine source target text⟩ where
  depth := rfl
  spaces := by
    rw [toList_messageLine some]
    simp only [List.forall_mem_append]
    exact ⟨spaces_of_isIdentifier sender, spaces_of_all (by decide),
      spaces_of_isIdentifier receiver, spaces_of_all (by decide),
      fun c => (spaced_inert text).eq_space⟩

end Render

/-! ## What the search finds in them -/

namespace Extracted

open Extract (Whole)

def addLines (extracted : Extracted) (lines : List Render.Line) : Extracted :=
  lines.foldl (fun extracted line => extracted.addLine line.text.toList) extracted

theorem addLine_actorLine {aliases : Aliases} {name : String} (shown : Render.shown name = name)
    (named : name ≠ "") (unquoted : '"' ∉ name.toList) (whole : Whole (aliases.get name).toList)
    (extracted : Extracted) : extracted.addLine (actorLine aliases name).text.toList =
      { extracted with
        actors := extracted.actors.insert name
        nicknames := (aliases.get name, name) :: extracted.nicknames } := by
  have nonempty : name.toList ≠ [] := fun none => named (String.toList_eq_nil_iff.1 none)
  have found := Extract.leftmost?_of_start (Extract.actor?_declaration nonempty unquoted whole)
  rw [addLine, Render.toList_actorLine, shown, found, String.ofList_toList, String.ofList_toList]
  rfl

theorem not_mem_of_whole {word : List Char} (whole : Whole word) : '"' ∉ word := by
  intro quote
  have word := whole.legible '"' quote
  revert word
  decide +kernel

theorem addLine_messageLine {source target text : String} (sender : Whole source.toList)
    (receiver : Whole target.toList) (same : inert text.toList = text.toList) (some : text ≠ "")
    (extracted : Extracted) : extracted.addLine (messageLine source target text.toList).toList =
      { extracted with
        actors := (extracted.actors.insert (extracted.nicknames.resolve source)).insert
          (extracted.nicknames.resolve target)
        messages := extracted.messages ++
          [⟨extracted.nicknames.resolve source, extracted.nicknames.resolve target, text⟩] } := by
  have inert := Render.inert_inert text.toList
  rw [same] at inert
  -- Without a quote the line declares nothing, so that it is searched for a message.
  have unquoted : '"' ∉ source.toList ++ (" -> ".toList ++ (target.toList ++
      (" : ".toList ++ text.toList))) := by
    simp only [List.mem_append, not_or]
    exact ⟨not_mem_of_whole sender, by decide, not_mem_of_whole receiver, by decide,
      inert.plain.quote⟩
  have found := Extract.leftmost?_of_start (Extract.message?_line sender receiver text.toList)
  rw [addLine, Render.toList_messageLine (Render.inert_ne_nil same some), same,
    Extract.leftmost?_actor?_eq_none unquoted, found, Text.trim_of_collapse inert.collapsed]
  simp only [String.ofList_toList]

theorem addLine_idle {line : List Char} (noActor : Extract.leftmost? Extract.actor? line = none)
    (noMessage : Extract.leftmost? Extract.message? line = none) (extracted : Extracted) :
    extracted.addLine line = extracted := by
  rw [addLine, noActor, noMessage]

theorem addLines_idle {depth : Nat} {text : String}
    (noActor : Extract.leftmost? Extract.actor? text.toList = none)
    (noMessage : Extract.leftmost? Extract.message? text.toList = none) (extracted : Extracted) :
    extracted.addLines [⟨depth, text⟩] = extracted := addLine_idle noActor noMessage extracted

@[simp] theorem addLines_nil (extracted : Extracted) : extracted.addLines [] = extracted := rfl

@[simp] theorem addLines_append (extracted : Extracted) (first second : List Render.Line) :
    extracted.addLines (first ++ second) = (extracted.addLines first).addLines second :=
  List.foldl_append

theorem addLines_actorLines {aliases : Aliases} {names : List String}
    (shown : ∀ name ∈ names, Render.shown name = name) (named : ∀ name ∈ names, name ≠ "")
    (unquoted : ∀ name ∈ names, '"' ∉ name.toList)
    (whole : ∀ name ∈ names, Whole (aliases.get name).toList) (extracted : Extracted) :
    extracted.addLines (names.map (actorLine aliases)) =
      { extracted with
        actors := names.foldl Roster.insert extracted.actors
        nicknames := declaredAs aliases names ++ extracted.nicknames } := by
  induction names generalizing extracted with
  | nil => rfl
  | cons name rest ih =>
    rw [List.forall_mem_cons] at shown named unquoted whole
    have first := addLine_actorLine shown.1 named.1 unquoted.1 whole.1 extracted
    rw [List.map_cons, addLines, List.foldl_cons, first, ← addLines,
      ih shown.2 named.2 unquoted.2 whole.2]
    simp [declaredAs, shown.1]

theorem addLines_messages {aliases : Aliases} {names : List String} (extracted : Extracted)
    (actors : ∀ name ∈ names, name ∈ extracted.actors.names)
    (resolve : ∀ name ∈ names, extracted.nicknames.resolve (aliases.get name) = name)
    (whole : ∀ name ∈ names, Whole (aliases.get name).toList) {actions : List Action}
    (plain : ∀ action ∈ actions, action.IsPlainMessage names) :
    (extracted.addLines (Render.actionsLines aliases 0 actions)).shown =
      { extracted.shown with actions := extracted.shown.actions ++ actions } := by
  induction actions generalizing extracted with
  | nil => simp [Render.actionsLines]
  | cons action rest ih =>
    obtain ⟨first, later⟩ := List.forall_mem_cons.1 plain
    obtain ⟨source, target, text, rfl, ⟨sender, receiver⟩, some, same, -⟩ := first.eq
    have one := addLine_messageLine (whole source sender) (whole target receiver) same some extracted
    rw [resolve source sender, resolve target receiver, insert_of_mem (actors source sender),
      insert_of_mem (actors target receiver)] at one
    have others := ih ⟨extracted.actors, extracted.messages ++ [⟨source, target, text⟩],
      extracted.nicknames⟩ actors resolve later
    rw [Render.actionsLines, Render.actionLines, List.singleton_append, addLines, List.foldl_cons,
      one, ← addLines, others]
    simp [Extracted.shown]

end Extracted

namespace Storyboard

variable {board : Storyboard}

theorem mem_of_mem_mentions {declared : List String} {actions : List Action}
    (plain : ∀ action ∈ actions, action.IsPlainMessage declared) :
    ∀ name ∈ Render.mentionsAll actions, name ∈ declared := by
  induction actions with
  | nil => exact fun _ none => by cases none
  | cons action rest ih =>
    obtain ⟨first, later⟩ := List.forall_mem_cons.1 plain
    obtain ⟨source, target, text, rfl, ⟨sender, receiver⟩, -⟩ := first.eq
    rw [Render.mentionsAll, Render.mentions]
    simp only [List.forall_mem_append, List.forall_mem_cons]
    exact ⟨⟨sender, receiver, fun _ none => by cases none⟩, ih later⟩

theorem isIdentifier_alias {name : String} (member : name ∈ board.actors.names) :
    IsIdentifier (board.aliases.get name) :=
  Aliases.isIdentifier_get (List.mem_append_left _ member)

theorem Flat.whole (flat : board.Flat)
    (legible : ∀ name ∈ board.actors.names, Token.Legible name) :
    ∀ name ∈ board.actors.names, Extract.Whole (board.aliases.get name).toList := by
  intro name member
  have identifier := isIdentifier_alias member
  have mentioned : ∀ other ∈ board.actors.names ++ Render.mentionsAll board.actions,
      other ∈ board.actors.names :=
    List.forall_mem_append.2 ⟨fun _ => id, mem_of_mem_mentions flat.plain⟩
  obtain ⟨⟨⟨first, head, -⟩, chars⟩, -⟩ := identifier
  refine ⟨List.ne_nil_of_mem (List.mem_of_mem_head? head), ?_, ?_⟩
  · exact Aliases.isWord_get (fun other inside => legible other (mentioned other inside))
      (List.mem_append_left _ member)
  · exact fun c inside => Token.isBlank_of_isIdentifierChar (chars c inside)

theorem Flat.lines (flat : board.Flat) :
    board.lines = [⟨0, "@startuml"⟩] ++ board.actors.names.map (actorLine board.aliases) ++
      Render.gapLines board ++ Render.actionsLines board.aliases 0 board.actions := by
  have untitled : Render.titleLines board.title = [] := by
    rw [flat.untitled]
    rfl
  rw [Storyboard.lines, untitled]

theorem flush_actionsLines {actions : List Action}
    (plain : ∀ action ∈ actions, action.IsPlainMessage board.actors.names) :
    ∀ line ∈ Render.actionsLines board.aliases 0 actions, line.Flush := by
  induction actions with
  | nil => simp [Render.actionsLines]
  | cons action rest ih =>
    obtain ⟨first, later⟩ := List.forall_mem_cons.1 plain
    obtain ⟨source, target, text, rfl, ⟨sender, receiver⟩, some, same, -⟩ := first.eq
    have flush := Render.flush_messageLine (isIdentifier_alias sender)
      (isIdentifier_alias receiver) (Render.inert_ne_nil same some)
    rw [Render.actionsLines, Render.actionLines]
    exact List.forall_mem_cons.2 ⟨flush, ih later⟩

theorem Flat.flush (flat : board.Flat) : ∀ line ∈ board.lines, line.Flush := by
  have gap : ∀ line ∈ Render.gapLines board, line.Flush := by
    unfold Render.gapLines
    split
    · exact fun _ none => by cases none
    · exact List.forall_mem_singleton.2 ⟨rfl, Render.spaces_of_all (by decide)⟩
  have declarations : ∀ line ∈ board.actors.names.map (actorLine board.aliases), line.Flush := by
    intro line member
    obtain ⟨name, inside, rfl⟩ := List.mem_map.1 member
    exact Render.flush_actorLine (isIdentifier_alias inside)
  rw [flat.lines]
  simp only [List.forall_mem_append, List.forall_mem_singleton]
  exact ⟨⟨⟨⟨rfl, Render.spaces_of_all (by decide)⟩, declarations⟩, gap⟩,
    flush_actionsLines flat.plain⟩

theorem Flat.extract_render (flat : board.Flat) :
    extract board.render = Extracted.empty.addLines board.lines := by
  have last (extracted : Extracted) : extracted.addLine "@enduml".toList = extracted :=
    Extracted.addLine_idle (by decide +kernel) (by decide +kernel) extracted
  have ends : Text.lines "@enduml".toList = ["@enduml".toList] := by decide +kernel
  rw [extract, toList_render, Render.lines_written flat.flush, List.foldl_append, List.foldl_map,
    ends, List.foldl_cons, last, List.foldl_nil]
  rfl

theorem Flat.shown_extract (flat : board.Flat)
    (legible : ∀ name ∈ board.actors.names, Token.Legible name) :
    (extract board.render).shown =
      { actors := board.actors, actions := board.actions, title := none } := by
  have whole := flat.whole legible
  have first (extracted : Extracted) : extracted.addLines [⟨0, "@startuml"⟩] = extracted :=
    Extracted.addLines_idle (by decide +kernel) (by decide +kernel) extracted
  have gap (extracted : Extracted) : extracted.addLines (Render.gapLines board) = extracted := by
    unfold Render.gapLines
    split
    · rfl
    · exact Extracted.addLines_idle (by decide) (by decide) extracted
  have agreed : Agreed board.actors.names board.aliases board.nicknames Render.shown :=
    agreed_declaredAs
  -- The declarations are all found before the messages, so the search knows their nicknames then.
  have declared : Extracted.empty.addLines (board.actors.names.map (actorLine board.aliases)) =
      ⟨board.actors, [], board.nicknames⟩ := by
    rw [Extracted.addLines_actorLines flat.shown flat.named flat.unquoted whole]
    change Extracted.mk (Roster.ofList board.actors.names) [] (board.nicknames ++ []) = _
    rw [ofList_names, List.append_nil]
  have resolve : ∀ name ∈ board.actors.names, board.nicknames.resolve (board.aliases.get name) =
      name := fun name member => (agreed.resolve name member).trans (flat.shown name member)
  rw [flat.extract_render, flat.lines, Extracted.addLines_append, Extracted.addLines_append,
    Extracted.addLines_append, first, gap, declared,
    Extracted.addLines_messages _ (fun _ => id) resolve whole flat.plain]
  rfl

/-- The search in the lines of a flat storyboard's text and the reading of the text both find the
storyboard, unless a name holds a character that can be part of an identifier and of no word. -/
theorem project_extract_render (flat : board.Flat)
    (legible : ∀ name ∈ board.actors.names, Token.Legible name) :
    (extract board.render).document.project =
        { actors := board.actors, actions := board.actions, title := none } ∧
      (extract board.render).document.project = (Document.ofSource board.render).project := by
  have found := (Extracted.project_document_extract board.render).trans (flat.shown_extract legible)
  exact ⟨found, found.trans flat.project_ofSource.symm⟩

/-- Names that need a number, a keyword and Japanese names, and a text that looks like a message. -/
theorem project_extract_render_similar :
    let board : Storyboard :=
      { actors := ⟨["Web Shop", "Web-Shop", "end", "注文サーバー"], by decide⟩
        actions := [
          .message "Web-Shop" "Web Shop" "A -> B : say 'thanks'",
          .message "注文サーバー" "end" "actor"]
        mode := .split
        title := none }
    board.Flat ∧ (∀ name ∈ board.actors.names, Token.Legible name) ∧
      (extract board.render).document.project =
        { actors := board.actors, actions := board.actions, title := none } ∧
      (extract board.render).document.project = (Document.ofSource board.render).project := by
  intro board
  have flat : board.Flat :=
    { untitled := rfl
      named := by decide +kernel
      collapsed := by decide +kernel
      unquoted := by decide +kernel
      plain := by decide +kernel }
  have legible : ∀ name ∈ board.actors.names, Token.Legible name := by
    decide +kernel
  exact ⟨flat, legible, project_extract_render flat legible⟩

/-- The middle dot parts a name for the search, which takes what is after the dot for an actor. -/
theorem project_extract_render_parted :
    let board : Storyboard :=
      { actors := ⟨["ジョン・スミス", "B"], by decide⟩
        actions := [.message "ジョン・スミス" "B" "hi"]
        mode := .gui
        title := none }
    board.Flat ∧ (Document.ofSource board.render).project.actors.names = ["ジョン・スミス", "B"] ∧
      (extract board.render).document.project.actors.names = ["ジョン・スミス", "B", "スミス"] ∧
      (extract board.render).document.project.actions = [.message "スミス" "B" "hi"] := by
  intro board
  have flat : board.Flat :=
    { untitled := rfl
      named := by decide +kernel
      collapsed := by decide +kernel
      unquoted := by decide +kernel
      plain := by decide +kernel }
  refine ⟨flat, ?_, ?_, ?_⟩
  · rw [flat.project_ofSource]
  · decide +kernel
  · decide +kernel

end Storyboard

end Lifeline
