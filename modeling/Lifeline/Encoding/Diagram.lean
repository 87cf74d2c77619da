import Lifeline.Encoding.Token
import Lifeline.Diagram.Analysis

/-! Documents and analyses as JSON records. A statement is tagged with its type. -/

set_option autoImplicit false

namespace Lifeline

def Span.toJson (span : Span) : Json :=
  .object [("line", .nat span.line), ("column", .nat span.column), ("start", .nat span.start),
    ("end", .nat span.stop)]

def tagged (type : String) (members : List (String × Json)) : Json :=
  .object (("type", .string type) :: members)

mutual

def Statement.toJson : Statement → Json
  | .participant role name nickname span =>
    tagged "participant" ([("kind", .string role.word), ("name", .string name)] ++
      Json.member? "alias" .string nickname ++ [("span", span.toJson)])
  | .message source target text arrow isAsync isReturn span =>
    tagged "message" [("from", .string source), ("to", .string target), ("text", .string text),
      ("arrow", .string arrow), ("isAsync", .bool isAsync), ("isReturn", .bool isReturn),
      ("span", span.toJson)]
  | .alternative condition branches span =>
    tagged "alternative" [("condition", .string condition),
      ("branches", .array (branchesToJson branches)), ("span", span.toJson)]
  | .loop condition statements span =>
    tagged "loop" [("condition", .string condition),
      ("statements", .array (statementsToJson statements)), ("span", span.toJson)]
  | .parallel branches span =>
    tagged "parallel" [("branches", .array (branchesToJson branches)), ("span", span.toJson)]
  | .optional condition statements span =>
    tagged "optional" [("condition", .string condition),
      ("statements", .array (statementsToJson statements)), ("span", span.toJson)]
  | .note text target side span =>
    tagged "note" ([("text", .string text)] ++ Json.member? "target" .string target ++
      [("side", .string side.word), ("span", span.toJson)])
  | .activation target span =>
    tagged "activation" [("target", .string target), ("span", span.toJson)]
  | .deactivation target span =>
    tagged "deactivation" [("target", .string target), ("span", span.toJson)]
  | .title text span => tagged "title" [("text", .string text), ("span", span.toJson)]
  | .autonumber first span =>
    tagged "autonumber" (Json.member? "start" .nat first ++ [("span", span.toJson)])
  | .error message span => tagged "error" [("message", .string message), ("span", span.toJson)]

def statementsToJson : List Statement → List Json
  | [] => []
  | statement :: rest => statement.toJson :: statementsToJson rest

def Branch.toJson : Branch → Json
  | .mk condition statements span =>
    .object [("condition", .string condition), ("statements", .array (statementsToJson statements)),
      ("span", span.toJson)]

def branchesToJson : List Branch → List Json
  | [] => []
  | branch :: rest => branch.toJson :: branchesToJson rest

end

def Diagram.toJson (diagram : Diagram) : Json :=
  .object [("statements", .array (statementsToJson diagram.statements)),
    ("span", diagram.span.toJson), ("terminated", .bool diagram.terminated)]

def Document.toJson (document : Document) : Json :=
  .object [("diagrams", .array (document.diagrams.map Diagram.toJson)),
    ("span", document.span.toJson)]

def Statistics.toJson (statistics : Statistics) : Json :=
  .object [("totalNodes", .nat statistics.total),
    ("nodeKinds", .object (statistics.occurring.map fun (kind, count) => (kind.word, .nat count))),
    ("participants", .nat statistics.participants), ("messages", .nat statistics.messages),
    ("controlStructures", .nat statistics.controlStructures), ("errors", .nat statistics.errors)]

def Analysis.toJson (analysis : Analysis) : Json :=
  .object [("input", .string analysis.source), ("tokens", .array (analysis.tokens.map Token.toJson)),
    ("document", Json.optional Document.toJson analysis.document),
    ("errors", .array (analysis.issues.map Diagnostic.toJson)),
    ("statistics", Json.optional Statistics.toJson analysis.statistics)]

end Lifeline
