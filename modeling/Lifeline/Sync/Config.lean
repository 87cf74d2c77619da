import Lifeline.Source.Repair

/-! The settings of an engine. Durations are in milliseconds. -/

set_option autoImplicit false

namespace Lifeline

structure Config where
  debounceMs : Nat
  parseTimeoutMs : Nat
  /-- How many readings in a row may fail before one is turned away. -/
  maxParseAttempts : Nat
  minParseIntervalMs : Nat
  /-- How many counted errors make the engine pause. -/
  maxErrors : Nat
  maxLines : Nat
  metricsWindow : Nat
  metricsIntervalMs : Nat
  deriving DecidableEq, Repr

namespace Config

def default : Config where
  debounceMs := 300
  parseTimeoutMs := 5000
  maxParseAttempts := 3
  minParseIntervalMs := 100
  maxErrors := 5
  maxLines := Repair.defaultMaxLines
  metricsWindow := 100
  metricsIntervalMs := 30000

def nanosPerMilli : Nat := 1000000

def debounce (config : Config) : Nat := config.debounceMs * nanosPerMilli

def parseTimeout (config : Config) : Nat := config.parseTimeoutMs * nanosPerMilli

def minParseInterval (config : Config) : Nat := config.minParseIntervalMs * nanosPerMilli

def metricsInterval (config : Config) : Nat := config.metricsIntervalMs * nanosPerMilli

end Config

end Lifeline
