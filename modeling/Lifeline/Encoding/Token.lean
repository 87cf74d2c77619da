import Lifeline.Json.Basic
import Lifeline.Token.Scan

/-! Tokens and diagnostics as JSON records. -/

set_option autoImplicit false

namespace Lifeline

def Token.toJson (token : Token) : Json :=
  .object [("kind", .string token.kind.label), ("text", .string token.text),
    ("line", .nat token.line), ("column", .nat token.column), ("offset", .nat token.offset),
    ("length", .nat token.length)]

def Diagnostic.toJson (diagnostic : Diagnostic) : Json :=
  .object ([("kind", .string diagnostic.kind.word), ("message", .string diagnostic.message),
    ("line", .nat diagnostic.line), ("column", .nat diagnostic.column),
    ("position", .nat diagnostic.position)] ++
    Json.member? "token" Token.toJson diagnostic.token)

def Tokens.toJson (scanned : Tokens) : Json :=
  .object [("tokens", .array (scanned.tokens.map Token.toJson)),
    ("errors", .array (scanned.issues.map Diagnostic.toJson))]

end Lifeline
