import Lifeline.Proofs.Storyboard.Renaming
import Lifeline.Proofs.Storyboard.Rewritten
import Mathlib.Data.List.Infix

/-! The text of what a text shows.

Reading a storyboard's text and writing what it shows gives the same text again, if free text ends
nothing, collapsing a name does not change what it resembles, no two names are shown alike, and the
lines of notes come back one by one. A source without quotes and block comments shows a storyboard
that is like this; string literals can break each of the conditions. -/

set_option autoImplicit false

namespace Lifeline

open Token (IsIdentifier)
open Render (Placement inert shown mentions mentionsAll)

/-! ## Names as they are shown -/

namespace Render

theorem collapse_shown (name : String) :
    Text.collapse (shown name).toList = (shown name).toList := by
  rw [shown, String.toList_ofList]
  apply Text.collapse_of_spaced (spaced_withoutQuotes (Text.spaced_collapse name.toList))
  intro c head
  rw [withoutQuotes, List.head?_map, Option.mem_def, Option.map_eq_some_iff] at head
  obtain ⟨first, head, rfl⟩ := head
  rw [isBlank_withoutQuotes]
  exact Text.head?_collapse name.toList first head

theorem shown_shown (name : String) : shown (shown name) = shown name := by
  rw [shown, collapse_shown, withoutQuotes_of_not_mem (unquoted_shown name), String.ofList_toList]

theorem listable_shown {name : String} (listable : Listable name) : Listable (shown name) := by
  refine ⟨fun comma => listable.1 ?_, Text.trim_of_collapse (collapse_shown name)⟩
  rw [shown, String.toList_ofList, ← List.singleton_infix_iff] at comma
  have within := infix_of_infix_withoutQuotes (by decide) comma
  have kept := Text.infix_of_infix_collapse (by decide) (by decide) within
  exact (List.singleton_infix_iff _ _).1 kept

theorem shown_eq_empty {name : String} (listable : Listable name) (empty : shown name = "") :
    name = "" := by
  rw [shown, String.ofList_eq_empty_iff, withoutQuotes, List.map_eq_nil_iff,
    Text.collapse_eq_nil_iff] at empty
  rw [← String.toList_eq_nil_iff, ← listable.2]
  exact Text.trim_of_all_isBlank (Text.isBlank_of_words empty)

end Render

namespace Storyboard

variable {board : Storyboard}

/-- A storyboard whose text stays as it is when it is read and written again. -/
structure Lasting (board : Storyboard) : Prop extends Keeps board where
  /-- Collapsing a name does not change what it resembles. -/
  settled : ∀ name ∈ board.actors.names, identifierLike (shown name) = identifierLike name
  distinct : (board.actors.names.map shown).Nodup
  notes : ∀ step ∈ stepsOf board.actions, step.Lasts

theorem lasting_iff : board.Lasting ↔
    ((∀ step ∈ stepsOf board.actions, step.Placed ∧ step.Keeps ∧ step.Lasts) ∧
      .endUml ∉ Token.kinds (inert (board.title.getD "").toList)) ∧
    (∀ name ∈ board.actors.names, identifierLike (shown name) = identifierLike name) ∧
      (board.actors.names.map shown).Nodup :=
  ⟨fun lasting => ⟨⟨fun step member => ⟨lasting.placed step member, lasting.texts step member,
      lasting.notes step member⟩, lasting.title⟩, lasting.settled, lasting.distinct⟩,
    fun ⟨⟨steps, title⟩, settled, distinct⟩ =>
      { placed := fun step member => (steps step member).1
        texts := fun step member => (steps step member).2.1
        title := title
        settled := settled
        distinct := distinct
        notes := fun step member => (steps step member).2.2 }⟩

instance (board : Storyboard) : Decidable board.Lasting := decidable_of_iff' _ lasting_iff

theorem ofSource_render_of_keeps (keeps : board.Keeps)
    (between : ∀ name ∈ endsOf board.actions, name ∈ board.actors.names) :
    (analyze board.render).issues = [] ∧ ofSource board.render =
      { actors := .ofList (board.actors.names.map shown)
        actions := rewordAll (writtenWords board.call) board.actions
        mode := .gui
        title := shownTitle board.title } := by
  obtain ⟨clean, declared, -, actions, title⟩ := document_render_of_agreed board.agreed_call
    (fun _ member => List.mem_append_left _ member) keeps.readable keeps.title
  refine ⟨clean, ?_⟩
  -- What the text shows says between whom its messages go, and that they are the declared actors.
  have known : ∀ name ∈ (Document.ofSource board.render).endpoints.map
      (Document.ofSource board.render).nicknames.resolve,
      name ∈ (Document.ofSource board.render).declared := by
    intro name member
    rw [← Document.mem_endsOf, actions, endsOf_written] at member
    obtain ⟨original, inside, rfl⟩ := List.mem_map.1 member
    rw [declared, call_of_mem original (between original inside)]
    exact List.mem_map_of_mem (between original inside)
  have actors : (Document.ofSource board.render).project.actors =
      .ofList (board.actors.names.map shown) := by
    rw [← declared]
    exact ofList_append_of_mem known
  rw [ofSource, Projection.onto, actors, actions, title]
  rfl

theorem render_eq_of_lines {first second : Storyboard} (same : first.lines = second.lines) :
    first.render = second.render := by
  rw [render, render, same]

theorem Keeps.renamed (keeps : board.Keeps) :
    ∀ step ∈ stepsOf board.actions, step.Renamed board.call := by
  intro step member
  cases step with
  | note position text =>
    have called : ∀ name ∈ (Placement.ofPosition position).names,
        Listable (board.call name) ∧ (board.call name = "" → name = "") := by
      intro name inside
      have listable := Placement.listable_of_mem_names inside
      by_cases declared : name ∈ board.actors.names
      · rw [call_of_mem name declared]
        exact ⟨Render.listable_shown listable, Render.shown_eq_empty listable⟩
      · have inside : name ∈ mentions (.note position text) := inside
        have mentioned := mem_mentionsAll inside board.actions member
        have identifier : IsIdentifier (board.aliases.get name) :=
          Aliases.isIdentifier_get (List.mem_append_right _ mentioned)
        have nonempty : board.aliases.get name ≠ "" := fun empty =>
          absurd identifier (empty ▸ by decide)
        rw [call_of_not_mem mentioned declared]
        exact ⟨listable_of_isIdentifier identifier, fun empty => absurd empty nonempty⟩
    have stands : (Placement.ofPosition position).Stands _ := (keeps.readable _ member).1
    exact Placement.ofPosition_named stands (fun name inside => (called name inside).1)
      fun name inside => (called name inside).2
  | _ => trivial

theorem inert_shownTitle (title : Option String) :
    inert ((shownTitle title).getD "").toList = inert (title.getD "").toList := by
  rw [shownTitle]
  split
  · rename_i empty
    rw [empty]
    rfl
  · exact Render.inert_ofList_inert _

section

variable (lasting : board.Lasting)
  (between : ∀ name ∈ endsOf board.actions, name ∈ board.actors.names)

include lasting between

theorem Lasting.names_ofSource :
    (ofSource board.render).actors.names = board.actors.names.map shown := by
  rw [(ofSource_render_of_keeps lasting.toKeeps between).2]
  exact names_ofList lasting.distinct

theorem Lasting.get_call :
    ∀ name ∈ board.actors.names ++ mentionsAll board.actions,
      (ofSource board.render).aliases.get (board.call name) = board.aliases.get name := by
  have called : board.actors.names.map shown = board.actors.names.map board.call :=
    List.map_congr_left fun name member => (call_of_mem name member).symm
  have names : (ofSource board.render).actors.names ++ mentionsAll (ofSource board.render).actions =
      (board.actors.names ++ mentionsAll board.actions).map board.call := by
    rw [lasting.names_ofSource between, (ofSource_render_of_keeps lasting.toKeeps between).2,
      List.map_append, ← called, ← mentionsAll_reword _ lasting.toKeeps.renamed]
  rw [aliases, names]
  exact (recalled_call lasting.settled lasting.distinct).get_map

theorem Lasting.rewritten : ∀ step ∈ stepsOf board.actions,
    step.Rewritten board.aliases (ofSource board.render).aliases board.call := by
  intro step member
  have get_call : ∀ name ∈ mentions step, _ := fun name inside => lasting.get_call between name
    (List.mem_append_right _ (mem_mentionsAll inside board.actions member))
  cases step with
  | message source target text =>
    exact ⟨get_call source (by simp [mentions]), get_call target (by simp [mentions])⟩
  | activation actor | deactivation actor => exact get_call actor (by simp [mentions])
  | note position text =>
    refine ⟨?_, lasting.notes _ member⟩
    rw [show _ = _ from lasting.toKeeps.renamed _ member]
    exact Placement.write_rename get_call
  | alt | loop | par | opt => trivial

theorem Lasting.lines_ofSource : (ofSource board.render).lines = board.lines := by
  obtain ⟨-, shows⟩ := ofSource_render_of_keeps lasting.toKeeps between
  have names := lasting.names_ofSource between
  -- The lines are compared part by part, in the order in which they stand.
  have title : Render.titleLines (ofSource board.render).title =
      Render.titleLines board.title := by
    rw [shows, Render.titleLines, Render.titleLines, inert_shownTitle]
  have gap : Render.gapLines (ofSource board.render) = Render.gapLines board := by
    rw [Render.gapLines, names, shows, Render.gapLines, List.isEmpty_map, isEmpty_rewordAll]
  have actors : (ofSource board.render).actors.names.map
        (Render.actorLine (ofSource board.render).aliases) =
      board.actors.names.map (Render.actorLine board.aliases) := by
    rw [names, List.map_map]
    refine List.map_congr_left fun name member => ?_
    have same := lasting.get_call between name (List.mem_append_left _ member)
    rw [call_of_mem name member] at same
    have line (aliases : Aliases) (name : String) : Render.actorLine aliases name =
        ⟨0, "actor \"" ++ shown name ++ "\" as " ++ aliases.get name⟩ := rfl
    rw [Function.comp, line, line, Render.shown_shown, same]
  have actions : Render.actionsLines (ofSource board.render).aliases 0
      (ofSource board.render).actions = Render.actionsLines board.aliases 0 board.actions := by
    rw [← actionsLines_reword board.actions (lasting.rewritten between) 0, shows]
  rw [lines, lines, title, actors, gap, actions]

theorem Lasting.render_ofSource : (ofSource board.render).render = board.render :=
  render_eq_of_lines (lasting.lines_ofSource between)

end

/-- The text of what a source shows is read without a complaint, and what it shows has the same
text. -/
theorem render_ofSource_render (source : String) (lasting : (ofSource source).Lasting) :
    (analyze (ofSource source).render).issues = [] ∧
      (ofSource (ofSource source).render).render = (ofSource source).render :=
  ⟨(ofSource_render_of_keeps lasting.toKeeps (endsOf_ofSource source)).1,
    lasting.render_ofSource (endsOf_ofSource source)⟩

theorem render_ofSource_render_literals :
    let source := "@startuml\nactor \"Web Shop\"\n\"Web Shop\" -> Bank : \"two  words\"\n" ++
      "alt \"paid /' late\"\nactivate \"No  One\"\nelse late\n" ++
      "note over Bank, \"No  One\"\n\"first  line\"\nsecond\nend note\nelse\nend\n@enduml"
    (ofSource source).Lasting ∧ (analyze (ofSource source).render).issues = [] ∧
      (ofSource (ofSource source).render).render = (ofSource source).render := by
  intro source
  have lasting : (ofSource source).Lasting := by decide +kernel
  exact ⟨lasting, render_ofSource_render source lasting⟩

/-- Diagrams that are read without a complaint, and whose text does not stay as it is, or is read
with complaints: one for each thing that is asked of a storyboard that lasts. -/
theorem render_ofSource_render_altered :
    let source (diagram : String) : String := "@startuml\n" ++ diagram ++ "\n@enduml"
    ∀ text ∈ [source "actor \"Web  Shop\"", source "actor \"A B\"\nactor \"A\tB\"",
        source "note over \"\" : x", source "loop \"end of day\"\nend",
        source "title \"@enduml\"", source "note left\n\"one\n\"\nend note"],
      (analyze text).issues = [] ∧ ¬((analyze (ofSource text).render).issues = [] ∧
        (ofSource (ofSource text).render).render = (ofSource text).render) := by
  decide +kernel

/-- A source without quotes and block comments shows a storyboard that lasts. -/
theorem lasting_ofSource {source : String} (clear : Token.Clear source.toList) :
    (ofSource source).Lasting := by
  have settled := settled_of_mem_nodes (settled_ofSource clear)
  have fixed := Document.fixed_actions settled
  have same : ∀ name ∈ (ofSource source).actors.names, shown name = name :=
    fun name member => (Document.isName_actors settled name member).shown
  refine
    { placed := fun step member => ?_
      texts := fun step member => (fixed step member).keeps
      title := endUml_title (Document.harmless_title settled)
      settled := fun name member => by rw [same name member]
      distinct := by
        rw [List.map_congr_left (g := id) same, List.map_id]
        exact (ofSource source).actors.nodup
      notes := fun step member => ?_ }
  · cases step with
    | note position text =>
      obtain ⟨-, -, stands⟩ := (fixed _ member).1.reads fun name isName =>
        ⟨isName.nonempty, isName.listable⟩
      intro words plain
      have stands := stands fun name inside => inside
      rwa [plain] at stands
    | _ => trivial
  · cases step with
    | note position text => exact Render.noteLasts_of_isNoteText (fixed _ member).2
    | _ => trivial

end Storyboard

end Lifeline
