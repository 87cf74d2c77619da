import Lifeline.Storyboard.Basic

/-! Storyboards in other words.

A rewording replaces the names, positions and texts of actions and keeps their kinds, their nesting
and their order. Two rewordings that agree on the steps of an action give the same. -/

set_option autoImplicit false

namespace Lifeline

/-- What stands in the place of each name, position and text. -/
structure Rewording where
  name : String → String
  position : String → String
  text : String → String
  note : String → String
  /-- The branches of a parallel action that has none. -/
  unbranched : List (List Action)

mutual

def Action.reword (words : Rewording) : Action → Action
  | .message source target text =>
    .message (words.name source) (words.name target) (words.text text)
  | .activation actor => .activation (words.name actor)
  | .deactivation actor => .deactivation (words.name actor)
  | .note position text => .note (words.position position) (words.note text)
  | .alt condition whenTrue whenFalse otherwise =>
    .alt (words.text condition) (rewordAll words whenTrue) (rewordAll words whenFalse)
      (words.text otherwise)
  | .loop condition actions => .loop (words.text condition) (rewordAll words actions)
  | .opt condition actions => .opt (words.text condition) (rewordAll words actions)
  | .par [] => .par words.unbranched
  | .par (branch :: rest) => .par (rewordAll words branch :: rewordBranches words rest)

def rewordAll (words : Rewording) : List Action → List Action
  | [] => []
  | action :: rest => action.reword words :: rewordAll words rest

def rewordBranches (words : Rewording) : List (List Action) → List (List Action)
  | [] => []
  | branch :: rest => rewordAll words branch :: rewordBranches words rest

end

mutual

def Action.steps : Action → List Action
  | .alt condition whenTrue whenFalse otherwise =>
    .alt condition whenTrue whenFalse otherwise :: (stepsOf whenTrue ++ stepsOf whenFalse)
  | .loop condition actions => .loop condition actions :: stepsOf actions
  | .opt condition actions => .opt condition actions :: stepsOf actions
  | .par branches => .par branches :: stepsOfBranches branches
  | action => [action]

def stepsOf : List Action → List Action
  | [] => []
  | action :: rest => action.steps ++ stepsOf rest

def stepsOfBranches : List (List Action) → List Action
  | [] => []
  | branch :: rest => stepsOf branch ++ stepsOfBranches rest

end

theorem Action.mem_steps (action : Action) : action ∈ action.steps := by
  cases action <;> simp [Action.steps]

theorem stepsOf_append (first second : List Action) :
    stepsOf (first ++ second) = stepsOf first ++ stepsOf second := by
  induction first with
  | nil => rfl
  | cons action first ih => rw [List.cons_append, stepsOf, ih, stepsOf, List.append_assoc]

namespace Rewording

def AgreeAt (first second : Rewording) : Action → Prop
  | .message source target text =>
    first.name source = second.name source ∧ first.name target = second.name target ∧
      first.text text = second.text text
  | .activation actor | .deactivation actor => first.name actor = second.name actor
  | .note position text =>
    first.position position = second.position position ∧ first.note text = second.note text
  | .alt condition _ _ otherwise =>
    first.text condition = second.text condition ∧ first.text otherwise = second.text otherwise
  | .loop condition _ | .opt condition _ => first.text condition = second.text condition
  | .par branches => branches = [] → first.unbranched = second.unbranched

variable {first second : Rewording}

mutual

theorem reword_congr : (action : Action) →
    (∀ step ∈ action.steps, AgreeAt first second step) → action.reword first = action.reword second
  | .message source target text, agree => by
    obtain ⟨same, same', text'⟩ := agree _ (Action.mem_steps _)
    rw [Action.reword, Action.reword, same, same', text']
  | .activation actor, agree => by
    rw [Action.reword, Action.reword, show first.name actor = _ from agree _ (Action.mem_steps _)]
  | .deactivation actor, agree => by
    rw [Action.reword, Action.reword, show first.name actor = _ from agree _ (Action.mem_steps _)]
  | .note position text, agree => by
    obtain ⟨same, text'⟩ := agree _ (Action.mem_steps _)
    rw [Action.reword, Action.reword, same, text']
  | .alt condition whenTrue whenFalse otherwise, agree => by
    obtain ⟨same, same'⟩ := agree _ (Action.mem_steps _)
    simp only [Action.steps, List.mem_cons, List.mem_append] at agree
    rw [Action.reword, Action.reword, same, same',
      rewordAll_congr whenTrue fun step member => agree step (.inr (.inl member)),
      rewordAll_congr whenFalse fun step member => agree step (.inr (.inr member))]
  | .loop condition actions, agree => by
    have same : first.text condition = second.text condition := agree _ (Action.mem_steps _)
    simp only [Action.steps, List.mem_cons] at agree
    rw [Action.reword, Action.reword, same,
      rewordAll_congr actions fun step member => agree step (.inr member)]
  | .opt condition actions, agree => by
    have same : first.text condition = second.text condition := agree _ (Action.mem_steps _)
    simp only [Action.steps, List.mem_cons] at agree
    rw [Action.reword, Action.reword, same,
      rewordAll_congr actions fun step member => agree step (.inr member)]
  | .par [], agree => by
    rw [Action.reword, Action.reword, agree _ (Action.mem_steps _) rfl]
  | .par (branch :: rest), agree => by
    simp only [Action.steps, stepsOfBranches, List.mem_cons, List.mem_append] at agree
    rw [Action.reword, Action.reword,
      rewordAll_congr branch fun step member => agree step (.inr (.inl member)),
      rewordBranches_congr rest fun step member => agree step (.inr (.inr member))]

theorem rewordAll_congr : (actions : List Action) →
    (∀ step ∈ stepsOf actions, AgreeAt first second step) →
    rewordAll first actions = rewordAll second actions
  | [], _ => rfl
  | action :: rest, agree => by
    simp only [stepsOf, List.mem_append] at agree
    rw [rewordAll, rewordAll, reword_congr action fun step member => agree step (.inl member),
      rewordAll_congr rest fun step member => agree step (.inr member)]

theorem rewordBranches_congr : (branches : List (List Action)) →
    (∀ step ∈ stepsOfBranches branches, AgreeAt first second step) →
    rewordBranches first branches = rewordBranches second branches
  | [], _ => rfl
  | branch :: rest, agree => by
    simp only [stepsOfBranches, List.mem_append] at agree
    rw [rewordBranches, rewordBranches,
      rewordAll_congr branch fun step member => agree step (.inl member),
      rewordBranches_congr rest fun step member => agree step (.inr member)]

end

section

variable {words : Rewording}

mutual

theorem steps_reword (unbranched : stepsOfBranches words.unbranched = []) : (action : Action) →
    (action.reword words).steps = action.steps.map (Action.reword words)
  | .message .. | .activation _ | .deactivation _ | .note .. => rfl
  | .alt _ whenTrue whenFalse _ => by
    rw [Action.reword, Action.steps, Action.steps, stepsOf_rewordAll unbranched whenTrue,
      stepsOf_rewordAll unbranched whenFalse, List.map_cons, List.map_append, Action.reword]
  | .loop _ actions => by
    rw [Action.reword, Action.steps, Action.steps, stepsOf_rewordAll unbranched actions,
      List.map_cons, Action.reword]
  | .opt _ actions => by
    rw [Action.reword, Action.steps, Action.steps, stepsOf_rewordAll unbranched actions,
      List.map_cons, Action.reword]
  | .par [] => by
    rw [Action.reword, Action.steps, unbranched]
    rfl
  | .par (branch :: rest) => by
    rw [Action.reword, Action.steps, Action.steps, stepsOfBranches, stepsOfBranches,
      stepsOf_rewordAll unbranched branch, stepsOf_rewordBranches unbranched rest, List.map_cons,
      List.map_append, Action.reword]

theorem stepsOf_rewordAll (unbranched : stepsOfBranches words.unbranched = []) :
    (actions : List Action) →
    stepsOf (rewordAll words actions) = (stepsOf actions).map (Action.reword words)
  | [] => rfl
  | action :: rest => by
    rw [rewordAll, stepsOf, stepsOf, steps_reword unbranched action,
      stepsOf_rewordAll unbranched rest, List.map_append]

theorem stepsOf_rewordBranches (unbranched : stepsOfBranches words.unbranched = []) :
    (branches : List (List Action)) →
    stepsOfBranches (rewordBranches words branches) =
      (stepsOfBranches branches).map (Action.reword words)
  | [] => rfl
  | branch :: rest => by
    rw [rewordBranches, stepsOfBranches, stepsOfBranches, stepsOf_rewordAll unbranched branch,
      stepsOf_rewordBranches unbranched rest, List.map_append]

end

end

def same : Rewording := ⟨id, id, id, id, []⟩

mutual

theorem reword_same : (action : Action) → action.reword same = action
  | .message .. | .activation _ | .deactivation _ | .note .. | .par [] => rfl
  | .alt _ whenTrue whenFalse _ => by
    rw [Action.reword, rewordAll_same whenTrue, rewordAll_same whenFalse]
    rfl
  | .loop _ actions => by
    rw [Action.reword, rewordAll_same actions]
    rfl
  | .opt _ actions => by
    rw [Action.reword, rewordAll_same actions]
    rfl
  | .par (branch :: rest) => by
    rw [Action.reword, rewordAll_same branch, rewordBranches_same rest]

theorem rewordAll_same : (actions : List Action) → rewordAll same actions = actions
  | [] => rfl
  | action :: rest => by rw [rewordAll, reword_same action, rewordAll_same rest]

theorem rewordBranches_same : (branches : List (List Action)) →
    rewordBranches same branches = branches
  | [] => rfl
  | branch :: rest => by rw [rewordBranches, rewordAll_same branch, rewordBranches_same rest]

end

def after (second first : Rewording) : Rewording where
  name := second.name ∘ first.name
  position := second.position ∘ first.position
  text := second.text ∘ first.text
  note := second.note ∘ first.note
  unbranched :=
    match first.unbranched with
    | [] => second.unbranched
    | branch :: rest => rewordAll second branch :: rewordBranches second rest

mutual

theorem reword_reword : (action : Action) →
    (action.reword first).reword second = action.reword (second.after first)
  | .message .. | .activation _ | .deactivation _ | .note .. => rfl
  | .alt _ whenTrue whenFalse _ => by
    rw [Action.reword, Action.reword, Action.reword, rewordAll_rewordAll whenTrue,
      rewordAll_rewordAll whenFalse]
    rfl
  | .loop _ actions => by
    rw [Action.reword, Action.reword, Action.reword, rewordAll_rewordAll actions]
    rfl
  | .opt _ actions => by
    rw [Action.reword, Action.reword, Action.reword, rewordAll_rewordAll actions]
    rfl
  | .par [] => by
    rw [Action.reword, Action.reword, after]
    cases first.unbranched <;> rw [Action.reword]
  | .par (branch :: rest) => by
    rw [Action.reword, Action.reword, Action.reword, rewordAll_rewordAll branch,
      rewordBranches_rewordBranches rest]

theorem rewordAll_rewordAll : (actions : List Action) →
    rewordAll second (rewordAll first actions) = rewordAll (second.after first) actions
  | [] => rfl
  | action :: rest => by
    rw [rewordAll, rewordAll, rewordAll, reword_reword action, rewordAll_rewordAll rest]

theorem rewordBranches_rewordBranches : (branches : List (List Action)) →
    rewordBranches second (rewordBranches first branches) =
      rewordBranches (second.after first) branches
  | [] => rfl
  | branch :: rest => by
    rw [rewordBranches, rewordBranches, rewordBranches, rewordAll_rewordAll branch,
      rewordBranches_rewordBranches rest]

end

end Rewording

end Lifeline
