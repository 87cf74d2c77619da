import Lifeline.Encoding.Storyboard
import Lifeline.Export.Timestamp
import Lifeline.Storyboard.Render
import Lifeline.Storyboard.Source

/-! Exported diagrams: the source text of a storyboard with its conditions as records.

The text is what counts when an export is read back; the conditions are there to be looked at. -/

set_option autoImplicit false

namespace Lifeline

structure Export where
  /-- The actions of the storyboard that hold others, or whatever stands in their place. -/
  conditions : List Json
  code : String
  version : String
  exportedAt : Timestamp
  conditionCount : Nat

namespace Export

def formatVersion : String := "1.0"

def ofBoard (board : Storyboard) (exportedAt : Timestamp) : Export :=
  let conditions := (board.actions.filter Action.isCondition).map Action.toJson
  ⟨conditions, board.render, formatVersion, exportedAt, conditions.length⟩

def toJsonAt (time : Option String) (document : Export) : Json :=
  .object [("conditions", .array document.conditions), ("plantUML", .string document.code),
    ("metadata", .object ([("version", .string document.version)] ++
      Json.member? "exportedAt" .string time ++
      [("conditionCount", .nat document.conditionCount)]))]

def toJson (document : Export) : Json := document.toJsonAt (some document.exportedAt.text)

mutual

/-- A value as it is held: of members with one name, the last value at the first place. -/
def held : Json → Json
  | .array items => .array (heldAll items)
  | .object members => .object (heldMembers [] members)
  | json => json

def heldAll : List Json → List Json
  | [] => []
  | item :: rest => held item :: heldAll rest

def heldMembers (done : List (String × Json)) : List (String × Json) → List (String × Json)
  | [] => done
  | (name, value) :: rest =>
    let value := held value
    if done.any (·.1 == name) then
      heldMembers (done.map fun member => if member.1 == name then (name, value) else member) rest
    else heldMembers (done ++ [(name, value)]) rest

end

def condition? (json : Json) : Option Json := if json.isReadable then some (held json) else none

def time? (json : Json) : Option Timestamp := (Json.string? json).bind Timestamp.ofText?

def fieldNames : List String := ["conditions", "plantUML", "metadata"]

def ofJson? (json : Json) : Option Export := do
  match ← Json.fields? fieldNames json with
  | [conditions, code, metadata] =>
    match ← Json.required? (Json.fields? ["version", "exportedAt", "conditionCount"]) metadata with
    | [version, exportedAt, count] =>
      return {
        conditions := ← Json.required? (Json.list? condition?) conditions
        code := ← Json.required? Json.string? code
        version := ← Json.required? Json.string? version
        exportedAt := ← Json.required? time? exportedAt
        conditionCount := ← Json.required? Json.nat? count }
    | _ => none
  | _ => none

/-- Only the conditions are kept whole. -/
def ofText? (text : String) : Option Export :=
  Json.decodeText? fieldNames ["conditions"] ofJson? text

def board (document : Export) : Storyboard := .ofSource document.code

def same (first second : Export) : Bool :=
  Json.sameAll first.conditions second.conditions && first.code == second.code &&
    first.version == second.version && first.exportedAt == second.exportedAt &&
    first.conditionCount == second.conditionCount

end Export

end Lifeline
