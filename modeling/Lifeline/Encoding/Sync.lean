import Lifeline.Json.Record
import Lifeline.Source.Selection
import Lifeline.Sync.Engine

/-! Settings, selections, metrics and the status of an engine as JSON records. -/

set_option autoImplicit false

namespace Lifeline

namespace Config

def toJson (config : Config) : Json :=
  .object [("debounceMs", .nat config.debounceMs), ("parseTimeoutMs", .nat config.parseTimeoutMs),
    ("maxParseAttempts", .nat config.maxParseAttempts),
    ("minParseIntervalMs", .nat config.minParseIntervalMs), ("maxErrors", .nat config.maxErrors),
    ("maxLines", .nat config.maxLines), ("metricsWindow", .nat config.metricsWindow),
    ("metricsIntervalMs", .nat config.metricsIntervalMs)]

def fieldNames : List String :=
  ["debounceMs", "parseTimeoutMs", "maxParseAttempts", "minParseIntervalMs", "maxErrors",
   "maxLines", "metricsWindow", "metricsIntervalMs"]

/-- Settings that are left out have their default. -/
def ofJson? (json : Json) : Option Config := do
  match ← Json.fields? fieldNames json with
  | [debounce, timeout, attempts, interval, errors, lines, window, report] =>
    return {
      debounceMs := ← Json.defaulted? Json.nat? default.debounceMs debounce
      parseTimeoutMs := ← Json.defaulted? Json.nat? default.parseTimeoutMs timeout
      maxParseAttempts := ← Json.defaulted? Json.nat32? default.maxParseAttempts attempts
      minParseIntervalMs := ← Json.defaulted? Json.nat? default.minParseIntervalMs interval
      maxErrors := ← Json.defaulted? Json.nat32? default.maxErrors errors
      maxLines := ← Json.defaulted? Json.nat? default.maxLines lines
      metricsWindow := ← Json.defaulted? Json.nat? default.metricsWindow window
      metricsIntervalMs := ← Json.defaulted? Json.nat? default.metricsIntervalMs report }
  | _ => none

def ofText? (text : String) : Option Config := Json.decodeText? fieldNames [] ofJson? text

end Config

namespace Selection

def toJson (selection : Selection) : Json :=
  .object [("selectionStart", .nat selection.start), ("selectionEnd", .nat selection.stop)]

def ofJson? (json : Json) : Option Selection := do
  match ← Json.fields? ["selectionStart", "selectionEnd"] json with
  | [start, stop] => return ⟨← Json.required? Json.nat? start, ← Json.required? Json.nat? stop⟩
  | _ => none

end Selection

def millis (nanos : Nat) : Json := .number (.real (Float.ofNat nanos / 1000000.0))

/-- A report, unless a mean cannot be taken. -/
def Metrics.toJson (metrics : Metrics) : Except Metrics.Overflow Json := do
  let toBoard ← metrics.average .toBoard
  let toCode ← metrics.average .toCode
  return .object [("syncs", .nat metrics.syncs), ("fallbacks", .nat metrics.fallbacks),
    ("timeouts", .nat metrics.timeouts), ("rateLimited", .nat metrics.rateLimited),
    ("errors", .nat metrics.errors), ("avgCodeToGuiMs", Json.optional millis toBoard),
    ("avgGuiToCodeMs", Json.optional millis toCode),
    ("maxCodeToGuiMs", Json.optional millis (metrics.maximum .toBoard)),
    ("maxGuiToCodeMs", Json.optional millis (metrics.maximum .toCode))]

def Engine.toJson (engine : Engine) : Except Metrics.Overflow Json := do
  let metrics ← engine.metrics.toJson
  return .object [("state", .string engine.phase.word), ("errorCount", .nat engine.errorCount),
    ("parseAttempts", .nat engine.parseAttempts),
    ("codeToGuiPending", .bool engine.codeDebounce.isPending),
    ("guiToCodePending", .bool engine.boardDebounce.isPending), ("metrics", metrics)]

def Notification.toJson : Notification → Json
  | .paused errors => .object [("type", .string "sync-paused"), ("errors", .nat errors)]
  | .resumed => .object [("type", .string "sync-resumed")]

end Lifeline
