import Lifeline.Json.Basic
import Lifeline.Source.Extract

/-! Extracted actors and messages as JSON records. -/

set_option autoImplicit false

namespace Lifeline

def ExtractedMessage.toJson (message : ExtractedMessage) : Json :=
  .object [("from", .string message.source), ("to", .string message.target),
    ("text", .string message.text)]

def Extracted.toJson (extracted : Extracted) : Json :=
  .object [("actors", .array (extracted.actors.names.map .string)),
    ("messages", .array (extracted.messages.map ExtractedMessage.toJson))]

end Lifeline
