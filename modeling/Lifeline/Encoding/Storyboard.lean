import Lifeline.Encoding.Diagram
import Lifeline.Json.Record
import Lifeline.Storyboard.Difference

/-! Storyboards and actions as JSON records. An action is tagged with its type. -/

set_option autoImplicit false

namespace Lifeline

namespace Action

mutual

def toJson : Action → Json
  | .message source target text =>
    tagged "message" [("from", .string source), ("to", .string target), ("message", .string text)]
  | .activation actor => tagged "activation" [("actor", .string actor)]
  | .deactivation actor => tagged "deactivation" [("actor", .string actor)]
  | .note position text => tagged "note" [("position", .string position), ("text", .string text)]
  | .alt condition whenTrue whenFalse otherwise =>
    tagged "alt" ([("condition", .string condition), ("trueBranch", .array (allToJson whenTrue)),
      ("falseBranch", .array (allToJson whenFalse))] ++
      if otherwise.isEmpty then [] else [("elseCondition", .string otherwise)])
  | .loop condition actions =>
    tagged "loop" [("condition", .string condition), ("actions", .array (allToJson actions))]
  | .par branches => tagged "par" [("branches", .array (branchesToJson branches))]
  | .opt condition actions =>
    tagged "opt" [("condition", .string condition), ("actions", .array (allToJson actions))]

def allToJson : List Action → List Json
  | [] => []
  | action :: rest => toJson action :: allToJson rest

def branchesToJson : List (List Action) → List Json
  | [] => []
  | branch :: rest => .array (allToJson branch) :: branchesToJson rest

end

def variants : Json.Variants :=
  [("message", ["from", "to", "message"]), ("activation", ["actor"]), ("deactivation", ["actor"]),
   ("note", ["position", "text"]),
   ("alt", ["condition", "trueBranch", "falseBranch", "elseCondition"]),
   ("loop", ["condition", "actions"]), ("par", ["branches"]), ("opt", ["condition", "actions"])]

def ofJsonWithin? : Nat → Bool → Json → Option Action
  | 0, _, _ => none
  | depth + 1, held, json => do
    let string := Json.required? Json.string?
    let actions := Json.list? (ofJsonWithin? depth true)
    match ← Json.tagged? variants held json with
    | ("message", [source, target, text]) =>
      return .message (← string source) (← string target) (← string text)
    | ("activation", [actor]) => return .activation (← string actor)
    | ("deactivation", [actor]) => return .deactivation (← string actor)
    | ("note", [position, text]) => return .note (← string position) (← string text)
    | ("alt", [condition, whenTrue, whenFalse, otherwise]) =>
      return .alt (← string condition) (← Json.required? actions whenTrue)
        (← Json.defaulted? actions [] whenFalse) (← Json.defaulted? Json.string? "" otherwise)
    | ("loop", [condition, inner]) =>
      return .loop (← string condition) (← Json.required? actions inner)
    | ("par", [branches]) => return .par (← Json.required? (Json.list? actions) branches)
    | ("opt", [condition, inner]) =>
      return .opt (← string condition) (← Json.required? actions inner)
    | _ => none

/-- Every action takes at least one level of its value, so its depth is enough. -/
def ofJson? (json : Json) : Option Action := ofJsonWithin? json.depth false json

def ofText? (text : String) : Option Action := Json.decodeWithin? Json.depth ofJson? text

end Action

namespace Storyboard

def toJson (board : Storyboard) : Json :=
  .object ([("selectedActors", .array (board.actors.names.map .string)),
    ("actions", .array (Action.allToJson board.actions)), ("currentMode", .string board.mode.word)] ++
    Json.member? "title" .string board.title)

def fieldNames : List String := ["selectedActors", "actions", "currentMode", "title"]

def mode? : Json → Option Mode := Json.oneOf? (Mode.all.map fun mode => (mode.word, mode)) false

def ofJson? (json : Json) : Option Storyboard := do
  match ← Json.fields? fieldNames json with
  | [actors, actions, mode, title] =>
    return {
      actors := .ofList (← Json.defaulted? (Json.list? Json.string?) [] actors)
      actions := ← Json.defaulted? (Json.list? Action.ofJson?) [] actions
      mode := ← Json.defaulted? mode? .gui mode
      title := ← Json.defaulted? (Json.nullable? Json.string?) none title }
  | _ => none

def ofText? (text : String) : Option Storyboard :=
  Json.decodeText? fieldNames fieldNames ofJson? text

end Storyboard

def BoardDifference.toJson (difference : BoardDifference) : Json :=
  let strings (names : List String) := Json.array (names.map .string)
  let places (numbers : List Nat) := Json.array (numbers.map .nat)
  .object [("actorsAdded", strings difference.actorsAdded),
    ("actorsRemoved", strings difference.actorsRemoved),
    ("actionsAdded", places difference.actionsAdded),
    ("actionsRemoved", places difference.actionsRemoved),
    ("actionsModified", places difference.actionsModified),
    ("modeChanged", .bool difference.modeChanged), ("titleChanged", .bool difference.titleChanged)]

end Lifeline
