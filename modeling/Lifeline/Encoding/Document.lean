import Lifeline.Encoding.Diagram
import Lifeline.Json.Record

/-! Documents from JSON records. -/

set_option autoImplicit false

namespace Lifeline

def Span.ofJson? (json : Json) : Option Span := do
  let nat := Json.required? Json.nat?
  match ← Json.fields? ["line", "column", "start", "end"] json with
  | [line, column, start, stop] => return ⟨← nat line, ← nat column, ← nat start, ← nat stop⟩
  | _ => none

namespace Statement

def variants : Json.Variants :=
  [("participant", ["kind", "name", "alias", "span"]),
   ("message", ["from", "to", "text", "arrow", "isAsync", "isReturn", "span"]),
   ("alternative", ["condition", "branches", "span"]),
   ("loop", ["condition", "statements", "span"]), ("parallel", ["branches", "span"]),
   ("optional", ["condition", "statements", "span"]), ("note", ["text", "target", "side", "span"]),
   ("activation", ["target", "span"]), ("deactivation", ["target", "span"]),
   ("title", ["text", "span"]), ("autonumber", ["start", "span"]), ("error", ["message", "span"])]

def role? : Json → Option Role := Json.oneOf? (Role.all.map fun role => (role.word, role)) true

def side? : Json → Option NoteSide := Json.oneOf? (NoteSide.all.map fun side => (side.word, side)) true

def branchOf? (statement : Json → Option Statement) (json : Json) : Option Branch := do
  match ← Json.fields? ["condition", "statements", "span"] json with
  | [condition, statements, span] =>
    return .mk (← Json.required? Json.string? condition)
      (← Json.required? (Json.list? statement) statements) (← Json.required? Span.ofJson? span)
  | _ => none

def ofJsonWithin? : Nat → Bool → Json → Option Statement
  | 0, _, _ => none
  | depth + 1, held, json => do
    let string := Json.required? Json.string?
    let place := Json.required? Span.ofJson?
    let inner := Json.required? (Json.list? (ofJsonWithin? depth true))
    let parts := Json.required? (Json.list? (branchOf? (ofJsonWithin? depth true)))
    let perhaps := Json.defaulted? (Json.nullable? Json.string?) none
    match ← Json.tagged? variants held json with
    | ("participant", [role, name, nickname, span]) =>
      return .participant (← Json.required? role? role) (← string name) (← perhaps nickname)
        (← place span)
    | ("message", [source, target, text, arrow, isAsync, isReturn, span]) =>
      return .message (← string source) (← string target) (← string text) (← string arrow)
        (← Json.required? Json.bool? isAsync) (← Json.required? Json.bool? isReturn) (← place span)
    | ("alternative", [condition, branches, span]) =>
      return .alternative (← string condition) (← parts branches) (← place span)
    | ("loop", [condition, statements, span]) =>
      return .loop (← string condition) (← inner statements) (← place span)
    | ("parallel", [branches, span]) => return .parallel (← parts branches) (← place span)
    | ("optional", [condition, statements, span]) =>
      return .optional (← string condition) (← inner statements) (← place span)
    | ("note", [text, target, side, span]) =>
      return .note (← string text) (← perhaps target) (← Json.required? side? side) (← place span)
    | ("activation", [target, span]) => return .activation (← string target) (← place span)
    | ("deactivation", [target, span]) => return .deactivation (← string target) (← place span)
    | ("title", [text, span]) => return .title (← string text) (← place span)
    | ("autonumber", [first, span]) =>
      return .autonumber (← Json.defaulted? (Json.nullable? Json.nat32?) none first) (← place span)
    | ("error", [text, span]) => return .error (← string text) (← place span)
    | _ => none

/-- Every statement takes at least one level of its value, so its depth is enough. -/
def ofJson? (json : Json) : Option Statement := ofJsonWithin? json.depth false json

end Statement

namespace Diagram

def fieldNames : List String := ["statements", "span", "terminated"]

def ofJson? (json : Json) : Option Diagram := do
  match ← Json.fields? fieldNames json with
  | [statements, span, terminated] =>
    return ⟨← Json.required? (Json.list? Statement.ofJson?) statements,
      ← Json.required? Span.ofJson? span, ← Json.required? Json.bool? terminated⟩
  | _ => none

end Diagram

namespace Document

def fieldNames : List String := ["diagrams", "span"]

def ofJson? (json : Json) : Option Document := do
  match ← Json.fields? fieldNames json with
  | [diagrams, span] =>
    return ⟨← Json.required? (Json.list? Diagram.ofJson?) diagrams,
      ← Json.required? Span.ofJson? span⟩
  | _ => none

/-- The depth of what a document keeps whole: the statements of its diagrams. -/
def keptDepth (json : Json) : Nat :=
  match Json.fields? fieldNames json with
  | some [some (.array diagrams), _] =>
    (diagrams.map (Json.keptDepth Diagram.fieldNames ["statements"])).foldr max 0 + 2
  | _ => 0

def ofText? (text : String) : Option Document := Json.decodeWithin? keptDepth ofJson? text

end Document

end Lifeline
