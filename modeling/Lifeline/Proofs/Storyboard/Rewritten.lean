import Lifeline.Proofs.Storyboard.Ends
import Lifeline.Proofs.Storyboard.Reread

/-! The lines of actions that a text shows, and the lines of the text.

Free text that is inert already is written as it is, and names that are called otherwise are written
alike if they have the same identifiers. So the lines of what is read are the lines that were
written, step by step; only the lines of a note can come together or fall away. -/

set_option autoImplicit false

namespace Lifeline

open Token (Inert)
open Render (Placement Line inert noteLine noteLines noteText labelled isBlankLabel mentions
  mentionsAll mentionsBranches actionLines actionsLines elseLines branchLines laterBranchLines)

/-! ## Free text a second time -/

namespace Render

theorem inert_ofList_inert (text : List Char) :
    inert (String.ofList (inert text)).toList = inert text := by
  rw [String.toList_ofList, inert_of_inert (inert_inert text)]

theorem labelled_inert (keyword label : String) :
    labelled keyword (String.ofList (inert label.toList)) = labelled keyword label := by
  rw [labelled, labelled, inert_ofList_inert]

theorem inert_eq_nil_iff {text : List Char} : inert text = [] ↔ Text.words text = [] := by
  have comments (text : List Char) : withoutComments text = [] ↔ text = [] := by
    rw [← List.head?_eq_none_iff, head?_withoutComments, List.head?_eq_none_iff]
  rw [inert, comments, withoutQuotes, List.map_eq_nil_iff, Text.collapse_eq_nil_iff]

theorem isBlankLabel_iff {label : String} :
    isBlankLabel label = true ↔ inert label.toList = [] := by
  refine ⟨inert_of_isBlankLabel, fun none => ?_⟩
  rw [inert_eq_nil_iff] at none
  rw [isBlankLabel, List.isEmpty_iff]
  exact Text.trim_of_all_isBlank (Text.isBlank_of_words none)

theorem isBlankLabel_inert (label : String) :
    isBlankLabel (String.ofList (inert label.toList)) = isBlankLabel label := by
  rw [Bool.eq_iff_iff, isBlankLabel_iff, isBlankLabel_iff, inert_ofList_inert]

theorem messageLine_inert (source target : String) (text : List Char) :
    messageLine source target (String.ofList (inert text)).toList =
      messageLine source target text := by
  rw [messageLine, messageLine, inert_ofList_inert]

/-- Whether the lines of a note come back one by one: a note on several lines has at least two, and
none of them is blank. -/
def NoteLasts (text : String) : Prop :=
  '\n' ∈ text.toList → 2 ≤ (Text.lines text.toList).length ∧
    ∀ line ∈ Text.lines text.toList, inert line ≠ []

instance (text : String) : Decidable (NoteLasts text) := inferInstanceAs (Decidable (_ → _))

theorem noteLine_ne_nil {line : List Char} (some : inert line ≠ []) : noteLine line ≠ [] := by
  rcases noteLine_eq line with ⟨-, same⟩ | ⟨rest, -, same⟩
  · rwa [same]
  · rw [same]
    exact List.cons_ne_nil _ _

theorem noteLines_noteText {text : String} (lasts : NoteLasts text) (depth : Nat)
    (position : String) :
    noteLines depth position (noteText text).toList = noteLines depth position text.toList := by
  unfold noteLines noteText
  dsimp only
  by_cases several : text.toList.contains '\n' = true
  · -- None of the lines is dropped, so they are the lines of what they are joined to.
    obtain ⟨two, full⟩ := lasts (by simpa using several)
    have each : ∀ line ∈ (Text.lines text.toList).map noteLine, line ≠ [] ∧ Inert line := by
      intro line member
      obtain ⟨source, inside, rfl⟩ := List.mem_map.1 member
      exact ⟨noteLine_ne_nil (full source inside), inert_noteLine source⟩
    have kept : ((Text.lines text.toList).map noteLine).filter (! ·.isEmpty) =
        (Text.lines text.toList).map noteLine := by
      rw [List.filter_eq_self]
      exact fun line member => by simpa using (each line member).1
    obtain ⟨several', cut⟩ := lines_joined (by simpa using two) each
    have again : (fun line => (⟨depth + 1, String.ofList (noteLine line)⟩ : Line)) ∘ noteLine =
        fun line => ⟨depth + 1, String.ofList (noteLine line)⟩ := by
      funext line
      rw [Function.comp, noteLine_of_inert (inert_noteLine line) (head?_noteLine line)]
    rw [if_pos several, kept, if_pos several', if_pos several, cut, List.map_map, again]
  · have single : (String.ofList (inert text.toList)).toList.contains '\n' = false := by
      rw [String.toList_ofList]
      simpa using (inert_inert text.toList).plain.lineFeed
    rw [if_neg several, single, if_neg several, inert_ofList_inert]
    rfl

theorem noteLasts_of_isNoteText {text : String} (isNoteText : IsNoteText text) :
    NoteLasts text := by
  intro feed
  rcases isNoteText.cases with harmless | ⟨lines, two, rfl, each⟩
  · exact absurd feed harmless.plain.lineFeed
  obtain ⟨-, cut⟩ := lines_joined two fun line member =>
    ⟨(each line member).1, (each line member).2.toInert⟩
  rw [cut]
  refine ⟨two, fun line member => ?_⟩
  rw [inert_of_inert (each line member).2.toInert]
  exact (each line member).1

end Render

/-! ## Names a second time -/

variable {call : String → String}

def Action.Renamed (call : String → String) : Action → Prop
  | .note position _ =>
    Placement.ofPosition ((Placement.ofPosition position).named call) =
      (Placement.ofPosition position).rename call
  | _ => True

mutual

theorem mentions_reword : (action : Action) → (∀ step ∈ action.steps, step.Renamed call) →
    mentions (action.reword (writtenWords call)) = (mentions action).map call
  | .message .., _ | .activation _, _ | .deactivation _, _ | .par [], _ => rfl
  | .note position text, renamed => by
    have same : Placement.ofPosition ((Placement.ofPosition position).named call) = _ :=
      renamed _ (Action.mem_steps _)
    rw [mentions, ← Placement.names_rename, ← same]
    rfl
  | .alt _ whenTrue whenFalse _, renamed => by
    simp only [Action.steps, List.mem_cons, List.mem_append] at renamed
    rw [Action.reword, mentions, mentions,
      mentionsAll_reword whenTrue fun step member => renamed step (.inr (.inl member)),
      mentionsAll_reword whenFalse fun step member => renamed step (.inr (.inr member)),
      List.map_append]
  | .loop _ actions, renamed => by
    simp only [Action.steps, List.mem_cons] at renamed
    rw [Action.reword, mentions, mentions,
      mentionsAll_reword actions fun step member => renamed step (.inr member)]
  | .opt _ actions, renamed => by
    simp only [Action.steps, List.mem_cons] at renamed
    rw [Action.reword, mentions, mentions,
      mentionsAll_reword actions fun step member => renamed step (.inr member)]
  | .par (branch :: rest), renamed => by
    simp only [Action.steps, stepsOfBranches, List.mem_cons, List.mem_append] at renamed
    rw [Action.reword, mentions, mentions, mentionsBranches, mentionsBranches,
      mentionsAll_reword branch fun step member => renamed step (.inr (.inl member)),
      mentionsBranches_reword rest fun step member => renamed step (.inr (.inr member)),
      List.map_append]

theorem mentionsAll_reword : (actions : List Action) →
    (∀ step ∈ stepsOf actions, step.Renamed call) →
    mentionsAll (rewordAll (writtenWords call) actions) = (mentionsAll actions).map call
  | [], _ => rfl
  | action :: rest, renamed => by
    simp only [stepsOf, List.mem_append] at renamed
    rw [rewordAll, mentionsAll, mentionsAll,
      mentions_reword action fun step member => renamed step (.inl member),
      mentionsAll_reword rest fun step member => renamed step (.inr member), List.map_append]

theorem mentionsBranches_reword : (branches : List (List Action)) →
    (∀ step ∈ stepsOfBranches branches, step.Renamed call) →
    mentionsBranches (rewordBranches (writtenWords call) branches) =
      (mentionsBranches branches).map call
  | [], _ => rfl
  | branch :: rest, renamed => by
    simp only [stepsOfBranches, List.mem_append] at renamed
    rw [rewordBranches, mentionsBranches, mentionsBranches,
      mentionsAll_reword branch fun step member => renamed step (.inl member),
      mentionsBranches_reword rest fun step member => renamed step (.inr member), List.map_append]

end

/-! ## Lines a second time -/

def Action.Lasts : Action → Prop
  | .note _ text => Render.NoteLasts text
  | _ => True

instance : (step : Action) → Decidable step.Lasts
  | .note _ text => inferInstanceAs (Decidable (Render.NoteLasts text))
  | .message .. | .activation _ | .deactivation _ | .alt .. | .loop .. | .par _ | .opt .. =>
    .isTrue trivial

/-- Whether a step is written with the same identifiers and lines when it is read again. -/
def Action.Rewritten (aliases aliases' : Aliases) (call : String → String) : Action → Prop
  | .message source target _ =>
    aliases'.get (call source) = aliases.get source ∧
      aliases'.get (call target) = aliases.get target
  | .activation actor | .deactivation actor => aliases'.get (call actor) = aliases.get actor
  | .note position text =>
    (Placement.ofPosition ((Placement.ofPosition position).named call)).write aliases' =
      (Placement.ofPosition position).write aliases ∧ Render.NoteLasts text
  | .alt .. | .loop .. | .par _ | .opt .. => True

variable {aliases aliases' : Aliases}

theorem isEmpty_rewordAll (words : Rewording) (actions : List Action) :
    (rewordAll words actions).isEmpty = actions.isEmpty := by
  cases actions <;> rfl

mutual

theorem actionLines_reword : (action : Action) →
    (∀ step ∈ action.steps, step.Rewritten aliases aliases' call) → (depth : Nat) →
    actionLines aliases' depth (action.reword (writtenWords call)) =
      actionLines aliases depth action
  | .message source target text, rewritten, depth => by
    obtain ⟨sender, receiver⟩ := rewritten _ (Action.mem_steps _)
    rw [Action.reword, actionLines, actionLines, ← sender, ← receiver,
      ← Render.messageLine_inert _ _ text.toList]
    rfl
  | .activation actor, rewritten, depth => by
    rw [Action.reword, actionLines, actionLines, ← show _ = _ from rewritten _ (Action.mem_steps _)]
    rfl
  | .deactivation actor, rewritten, depth => by
    rw [Action.reword, actionLines, actionLines, ← show _ = _ from rewritten _ (Action.mem_steps _)]
    rfl
  | .note position text, rewritten, depth => by
    obtain ⟨placed, lasts⟩ := rewritten _ (Action.mem_steps _)
    rw [Action.reword, actionLines, actionLines, ← placed, ← Render.noteLines_noteText lasts]
    rfl
  | .alt condition whenTrue whenFalse otherwise, rewritten, depth => by
    simp only [Action.steps, List.mem_cons, List.mem_append] at rewritten
    rw [Action.reword, actionLines, actionLines,
      actionsLines_reword whenTrue fun step member => rewritten step (.inr (.inl member)),
      ← elseLines_reword whenFalse (fun step member => rewritten step (.inr (.inr member))),
      ← Render.labelled_inert _ condition]
    rfl
  | .loop condition actions, rewritten, depth => by
    simp only [Action.steps, List.mem_cons] at rewritten
    rw [Action.reword, actionLines, actionLines,
      actionsLines_reword actions fun step member => rewritten step (.inr member),
      ← Render.labelled_inert _ condition]
    rfl
  | .opt condition actions, rewritten, depth => by
    simp only [Action.steps, List.mem_cons] at rewritten
    rw [Action.reword, actionLines, actionLines,
      actionsLines_reword actions fun step member => rewritten step (.inr member),
      ← Render.labelled_inert _ condition]
    rfl
  | .par [], _, depth => rfl
  | .par (branch :: rest), rewritten, depth => by
    simp only [Action.steps, stepsOfBranches, List.mem_cons, List.mem_append] at rewritten
    rw [Action.reword, actionLines, actionLines, branchLines, branchLines,
      actionsLines_reword branch fun step member => rewritten step (.inr (.inl member)),
      laterBranchLines_reword rest fun step member => rewritten step (.inr (.inr member))]

theorem actionsLines_reword : (actions : List Action) →
    (∀ step ∈ stepsOf actions, step.Rewritten aliases aliases' call) → (depth : Nat) →
    actionsLines aliases' depth (rewordAll (writtenWords call) actions) =
      actionsLines aliases depth actions
  | [], _, _ => rfl
  | action :: rest, rewritten, depth => by
    simp only [stepsOf, List.mem_append] at rewritten
    rw [rewordAll, actionsLines, actionsLines,
      actionLines_reword action fun step member => rewritten step (.inl member),
      actionsLines_reword rest fun step member => rewritten step (.inr member)]

theorem elseLines_reword : (actions : List Action) →
    (∀ step ∈ stepsOf actions, step.Rewritten aliases aliases' call) → (label : String) →
    (depth : Nat) →
    elseLines aliases' depth (String.ofList (inert label.toList))
        (rewordAll (writtenWords call) actions) =
      elseLines aliases depth label actions
  | [], _, label, depth => by
    rw [rewordAll, elseLines, elseLines, Render.isBlankLabel_inert, Render.labelled_inert]
  | action :: rest, rewritten, label, depth => by
    simp only [stepsOf, List.mem_append] at rewritten
    have first := actionLines_reword action (fun step member => rewritten step (.inl member))
      (depth + 1)
    have later := actionsLines_reword rest (fun step member => rewritten step (.inr member))
      (depth + 1)
    have plain : ⟨depth, labelled "else" (String.ofList (inert label.toList))⟩ ::
        actionLines aliases' (depth + 1) (action.reword (writtenWords call)) ++
          actionsLines aliases' (depth + 1) (rewordAll (writtenWords call) rest) =
        (⟨depth, labelled "else" label⟩ : Line) :: actionLines aliases (depth + 1) action ++
          actionsLines aliases (depth + 1) rest := by
      rw [Render.labelled_inert, first, later]
    -- Only a single alternative under a blank label can go on as further branches.
    cases action with
    | alt condition whenTrue whenFalse otherwise =>
      cases rest with
      | cons => exact plain
      | nil =>
        simp only [Action.steps, List.mem_cons, List.mem_append] at rewritten
        have chained := actionsLines_reword whenTrue
          (fun step member => rewritten step (.inl (.inr (.inl member)))) (depth + 1)
        have chained' := elseLines_reword whenFalse
          (fun step member => rewritten step (.inl (.inr (.inr member)))) otherwise depth
        have text (text : String) :
            (writtenWords call).text text = String.ofList (inert text.toList) := rfl
        rw [rewordAll, rewordAll, Action.reword, elseLines, elseLines, text, text,
          Render.isBlankLabel_inert, Render.isBlankLabel_inert, isEmpty_rewordAll]
        split
        · rw [Render.labelled_inert, chained, chained']
        · rw [Action.reword, text, text] at first
          rw [Render.labelled_inert, first]
    | par branches => cases branches <;> exact plain
    | _ => exact plain

theorem laterBranchLines_reword : (branches : List (List Action)) →
    (∀ step ∈ stepsOfBranches branches, step.Rewritten aliases aliases' call) → (depth : Nat) →
    laterBranchLines aliases' depth (rewordBranches (writtenWords call) branches) =
      laterBranchLines aliases depth branches
  | [], _, _ => rfl
  | branch :: rest, rewritten, depth => by
    simp only [stepsOfBranches, List.mem_append] at rewritten
    rw [rewordBranches, laterBranchLines, laterBranchLines,
      actionsLines_reword branch fun step member => rewritten step (.inl member),
      laterBranchLines_reword rest fun step member => rewritten step (.inr member)]

end

end Lifeline
