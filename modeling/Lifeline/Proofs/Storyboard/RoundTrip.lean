import Lifeline.Proofs.Storyboard.Board
import Lifeline.Proofs.Token.Tiling

/-! From a storyboard to its text and back.

A storyboard whose names are collapsed and declared, whose placements are spelled out, and in whose
free text nothing ends a line of a condition, a note or the diagram too early, comes back from its
text. What the way there and back does to it is to write its free text inert. -/

set_option autoImplicit false

namespace Lifeline

open Token (IsWord kinds)
open Render (inert noteLine noteText labelled shown Placement placements LabelKept NoteKept)

/-! ## What a step holds -/

namespace Action

def texts : Action → List String
  | .message _ _ text | .note _ text => [text]
  | .alt condition _ _ otherwise => [condition, otherwise]
  | .loop condition _ | .opt condition _ => [condition]
  | .activation _ | .deactivation _ | .par _ => []

/-- The lines on which a condition follows its keyword. A condition that is written as a further
branch follows `else`, which is as good a keyword. -/
def labelLines : Action → List String
  | .alt condition _ _ otherwise => [labelled "alt" condition, labelled "else" otherwise]
  | .loop condition _ => [labelled "loop" condition]
  | .opt condition _ => [labelled "opt" condition]
  | _ => []

def bodyLines : Action → List String
  | .note _ text =>
    if text.toList.contains '\n' then
      (Text.lines text.toList).map fun line => String.ofList (noteLine line)
    else []
  | _ => []

/-- Whether a position places a note beside no one, or beside or over declared names. -/
def Positioned (declared : List String) (position : String) : Prop :=
  Placement.Spelled (fun name => (name ≠ "" ∧ ',' ∉ name.toList) ∧ name ∈ declared) position

def Declared (declared : List String) : Action → Prop
  | .message source target _ => source ∈ declared ∧ target ∈ declared
  | .activation actor | .deactivation actor => actor ∈ declared
  | .note position _ => Positioned declared position
  | .alt .. | .loop .. | .par _ | .opt .. => True

end Action

def HoldsEnd (text : String) : Prop := "@enduml".toList <:+: text.toList.map Char.toLower

instance (text : String) : Decidable (HoldsEnd text) := inferInstanceAs (Decidable (_ <:+: _))

namespace Storyboard

/-- A storyboard that its text shows as it is. -/
structure Writable (board : Storyboard) : Prop where
  collapsed : ∀ name ∈ board.actors.names, Text.collapse name.toList = name.toList
  unquoted : ∀ name ∈ board.actors.names, '"' ∉ name.toList
  declared : ∀ step ∈ stepsOf board.actions, step.Declared board.actors.names
  branched : .par [] ∉ stepsOf board.actions
  titleOpen : ∀ title ∈ board.title, ¬HoldsEnd title
  textsOpen : ∀ step ∈ stepsOf board.actions, ∀ text ∈ step.texts, ¬HoldsEnd text
  labels : ∀ step ∈ stepsOf board.actions, ∀ line ∈ step.labelLines,
    ∀ token ∈ (tokenize line).tokens.tail,
      token.kind.isBlockBoundary = false ∧ token.kind ≠ .startUml
  bodies : ∀ step ∈ stepsOf board.actions, ∀ line ∈ step.bodyLines,
    ¬[.endMark, .note] <+: (tokenize line).tokens.map Token.kind

end Storyboard

/-- A storyboard in the words of its text: free text inert, everything else as it is. -/
def inertWords : Rewording where
  name := id
  position := id
  text text := String.ofList (inert text.toList)
  note := noteText
  unbranched := []

/-- What comes back of a storyboard. -/
def Storyboard.normal (board : Storyboard) : Storyboard :=
  { board with
    actions := rewordAll inertWords board.actions
    title := shownTitle board.title }

/-! ## Free text that ends no diagram -/

/-- A run that spells the mark is in a text if every run of its characters is. -/
theorem holdsEnd_of_kinds {text : String} {line : List Char} (member : .endUml ∈ kinds line)
    (kept : ∀ run, run ≠ [] → ' ' ∉ run → '\'' ∉ run → '\u2019' ∉ run → run <:+: line →
      run <:+: text.toList) : HoldsEnd text := by
  obtain ⟨run, within, spelled⟩ := Token.spelling_of_endUml member
  -- The run holds only characters of the mark, so neither blanks nor quotes.
  have without (c : Char) (other : c.toLower ∉ "@enduml".toList) : c ∉ run := fun inside =>
    other (spelled ▸ List.mem_map_of_mem inside)
  have nonempty : run ≠ [] := by
    rintro rfl
    cases spelled
  have inside := kept run nonempty (without _ (by decide)) (without _ (by decide))
    (without _ (by decide)) within
  rw [HoldsEnd, ← spelled]
  exact inside.map Char.toLower

theorem endUml_inert {text : String} (keepsOpen : ¬HoldsEnd text) :
    .endUml ∉ kinds (inert text.toList) := fun member =>
  keepsOpen (holdsEnd_of_kinds member fun _ nonempty solid noApostrophe _ within =>
    Render.infix_of_infix_inert nonempty solid noApostrophe within)

theorem infix_of_infix_noteLine {run line : List Char} (nonempty : run ≠ []) (solid : ' ' ∉ run)
    (noApostrophe : '\'' ∉ run) (noQuote : '\u2019' ∉ run) (within : run <:+: noteLine line) :
    run <:+: line := by
  apply Render.infix_of_infix_inert nonempty solid noApostrophe
  rcases Render.noteLine_eq line with ⟨-, same⟩ | ⟨rest, cut, same⟩
  · rwa [same] at within
  · -- The apostrophe that was written in another way is in no run.
    rw [same] at within
    rw [cut]
    rcases Text.infix_append_cons noQuote [] within with none | later
    · exact absurd (List.eq_nil_of_infix_nil none) nonempty
    · exact later.trans (List.suffix_cons '\'' rest).isInfix

theorem endUml_noteLine {text : String} (keepsOpen : ¬HoldsEnd text) {line : List Char}
    (member : line ∈ Text.lines text.toList) : .endUml ∉ kinds (noteLine line) := fun found =>
  keepsOpen (holdsEnd_of_kinds found fun _ nonempty solid noApostrophe noQuote within =>
    (infix_of_infix_noteLine nonempty solid noApostrophe noQuote within).trans
      (Text.infix_of_mem_lines member))

/-! ## The tokens of single lines -/

theorem kinds_labelled {keyword : String} (isWord : IsWord keyword.toList) (label : String) :
    (tokenize (labelled keyword label)).tokens.tail.map Token.kind =
      kinds (inert label.toList) ++ [.eof] := by
  have ends : Token.EndsWord (Parsing.labelText (inert label.toList)) := by
    unfold Parsing.labelText
    split
    · simp [Token.EndsWord]
    · exact Token.endsWord_space _
  have later : (Token.lexemes false (Parsing.labelText (inert label.toList))).filterMap
      Token.Lexeme.kind = kinds (inert label.toList) := by
    unfold Parsing.labelText
    split
    · rename_i empty
      rw [List.isEmpty_iff.1 empty]
      rfl
    · exact Token.kinds_space (by decide) _
  rw [Token.tokens_tokenize, Render.labelled_toList, Token.lexemes_word isWord true ends,
    Token.placed_token, List.cons_append, List.tail_cons, List.map_append,
    Token.map_kind_placed, later]
  rfl

theorem labelKept_of_tokens (keyword : String) {label : String} (isWord : IsWord keyword.toList)
    (endUml : .endUml ∉ kinds (inert label.toList))
    (kept : ∀ token ∈ (tokenize (labelled keyword label)).tokens.tail,
      token.kind.isBlockBoundary = false ∧ token.kind ≠ .startUml) : LabelKept label := by
  intro kind member
  have listed : kind ∈ (tokenize (labelled keyword label)).tokens.tail.map Token.kind := by
    rw [kinds_labelled isWord]
    exact List.mem_append_left _ member
  obtain ⟨token, inside, rfl⟩ := List.mem_map.1 listed
  exact ⟨fun same => endUml (same ▸ member), kept token inside⟩

theorem kinds_bodyLine (line : List Char) :
    (tokenize (String.ofList (noteLine line))).tokens.map Token.kind =
      kinds (noteLine line) ++ [.eof] := by
  -- A line of a note starts with no apostrophe, so it lexes as it does inside a line.
  have starts : Token.lexemes true (noteLine line) = Token.lexemes false (noteLine line) := by
    cases same : noteLine line with
    | nil => simp [Token.lexemes]
    | cons c rest =>
      have inert := Render.inert_noteLine line
      have apostrophe := Render.head?_noteLine line
      rw [same] at inert apostrophe
      apply Token.lexemes_of_head
      · rintro rfl
        exact apostrophe rfl
      · rw [Bool.eq_false_iff]
        intro space
        have solid := Text.head?_collapse (c :: rest) c (by rw [inert.collapsed]; rfl)
        rw [Token.isBlank_of_isSpace space] at solid
        cases solid
  rw [Token.tokens_tokenize, String.toList_ofList, starts, List.map_append, Token.map_kind_placed]
  rfl

theorem Action.Positioned.reads {declared : List String} {position : String}
    (positioned : Positioned declared position)
    (collapsed : ∀ name ∈ declared, Text.collapse name.toList = name.toList) :
    (Placement.ofPosition position).Stands declared ∧
      (Placement.ofPosition position).named id = position := by
  obtain ⟨same, members, stands⟩ := Placement.Spelled.reads positioned fun name fits =>
    ⟨fits.1.1, fits.1.2, Text.trim_of_collapse (collapsed name fits.2)⟩
  exact ⟨stands fun name member => (members name member).2, same⟩

/-! ## The way there and back -/

namespace Storyboard

variable {board : Storyboard}

theorem Writable.shown (writable : board.Writable) :
    ∀ name ∈ board.actors.names, Lifeline.Render.shown name = name := by
  intro name member
  rw [Render.shown, writable.collapsed name member,
    Render.withoutQuotes_of_not_mem (writable.unquoted name member), String.ofList_toList]

theorem Writable.names (writable : board.Writable) :
    ∀ step ∈ stepsOf board.actions, step.Names board.actors.names := by
  intro step member
  have declared := writable.declared step member
  cases step with
  | note position text => exact (declared.reads writable.collapsed).1
  | _ => exact declared

theorem Writable.keeps (writable : board.Writable) :
    ∀ step ∈ stepsOf board.actions, step.Keeps := by
  intro step member
  have keepsOpen : ∀ text ∈ step.texts, .endUml ∉ kinds (inert text.toList) :=
    fun text inside => endUml_inert (writable.textsOpen step member text inside)
  have labels := writable.labels step member
  cases step with
  | activation | deactivation | par => trivial
  | message source target text => exact keepsOpen text (by simp [Action.texts])
  | note position text =>
    have bodies := writable.bodies _ member
    have noMark := writable.textsOpen _ member text (by simp [Action.texts])
    rw [Action.Keeps, NoteKept]
    split
    · rename_i several
      intro line inside
      refine ⟨endUml_noteLine noMark inside, fun closes => ?_⟩
      apply bodies (String.ofList (noteLine line))
      · rw [Action.bodyLines, if_pos several]
        exact List.mem_map_of_mem (f := fun line => String.ofList (noteLine line)) inside
      · rw [kinds_bodyLine]
        exact closes.trans (List.prefix_append _ _)
    · exact endUml_inert noMark
  | alt condition _ _ otherwise =>
    have first := keepsOpen condition (by simp [Action.texts])
    have second := keepsOpen otherwise (by simp [Action.texts])
    exact ⟨labelKept_of_tokens "alt" (by decide) first (labels _ (by simp [Action.labelLines])),
      labelKept_of_tokens "else" (by decide) second (labels _ (by simp [Action.labelLines]))⟩
  | loop condition =>
    have kept := keepsOpen condition (by simp [Action.texts])
    exact labelKept_of_tokens "loop" (by decide) kept (labels _ (by simp [Action.labelLines]))
  | opt condition =>
    have kept := keepsOpen condition (by simp [Action.texts])
    exact labelKept_of_tokens "opt" (by decide) kept (labels _ (by simp [Action.labelLines]))

theorem Writable.agreeAt (writable : board.Writable) :
    ∀ step ∈ stepsOf board.actions, (writtenWords Render.shown).AgreeAt inertWords step := by
  intro step member
  have declared := writable.declared step member
  cases step with
  | message source target text =>
    exact ⟨writable.shown source declared.1, writable.shown target declared.2, rfl⟩
  | activation actor | deactivation actor => exact writable.shown actor declared
  | note position text =>
    obtain ⟨stands, same⟩ := declared.reads writable.collapsed
    exact ⟨(stands.named_congr writable.shown).trans same, rfl⟩
  | alt => exact ⟨rfl, rfl⟩
  | loop | opt => rfl
  | par branches =>
    rintro rfl
    exact absurd member writable.branched

/-- The text of a storyboard is read without a complaint, and what it shows, applied to the
storyboard, only makes its free text inert. -/
theorem project_render_onto (board : Storyboard) (writable : board.Writable) :
    (analyze board.render).issues = [] ∧
      (Document.ofSource board.render).project.onto board = board.normal := by
  have titleOpen : .endUml ∉ kinds (inert (board.title.getD "").toList) := by
    apply endUml_inert
    cases title : board.title with
    | none => decide
    | some text => exact writable.titleOpen text (title ▸ rfl)
  have readable : ∀ step ∈ stepsOf board.actions, step.Readable board.actors.names :=
    fun step member => ⟨writable.names step member, writable.keeps step member⟩
  obtain ⟨clean, shows⟩ := project_render board readable titleOpen
  refine ⟨clean, ?_⟩
  rw [shows, List.map_congr_left (g := id) writable.shown, List.map_id, ofList_names,
    Rewording.rewordAll_congr board.actions writable.agreeAt]
  rfl

/-- An alternative that goes on as a further branch, and a note over two actors. -/
theorem project_render_onto_chained :
    let board : Storyboard :=
      { actors := ⟨["Web Shop", "Bank"], by decide⟩
        actions := [
          .alt "paid" [.message "Web Shop" "Bank" "say  \"thanks\""]
            [.alt "late" [.activation "Bank"]
              [.note "over Web Shop, Bank" "end of\n\n'story'"] "rest"] "",
          .par [[.deactivation "Bank"], []]]
        mode := .split
        title := some " Order /' " }
    board.Writable ∧ (analyze board.render).issues = [] ∧
      (Document.ofSource board.render).project.onto board = board.normal := by
  intro board
  have declared : ∀ step ∈ stepsOf board.actions, step.Declared board.actors.names := by
    have placed : Action.Positioned board.actors.names "over Web Shop, Bank" :=
      .inr (.inr ⟨"over ", by decide, ["Web Shop", "Bank"], by decide, by decide, by decide⟩)
    simp [board, stepsOf, stepsOfBranches, Action.steps, Action.Declared]
    exact placed
  have writable : board.Writable :=
    { collapsed := by decide +kernel
      unquoted := by decide +kernel
      declared := declared
      branched := by decide +kernel
      titleOpen := by decide +kernel
      textsOpen := by decide +kernel
      labels := by decide +kernel
      bodies := by decide +kernel }
  exact ⟨writable, project_render_onto board writable⟩

end Storyboard

end Lifeline
