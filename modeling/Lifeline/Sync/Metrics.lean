import Lifeline.Sync.Direction

/-! How long synchronization takes: recent samples in each direction, and counts over all time. -/

set_option autoImplicit false

namespace Lifeline

structure Metrics where
  window : Nat
  /-- Durations in nanoseconds, oldest first. -/
  toBoard : List Nat
  toCode : List Nat
  syncs : Nat
  fallbacks : Nat
  timeouts : Nat
  rateLimited : Nat
  errors : Nat
  deriving DecidableEq, Repr

namespace Metrics

def new (window : Nat) : Metrics := ⟨max window 1, [], [], 0, 0, 0, 0, 0⟩

def samples (metrics : Metrics) : Direction → List Nat
  | .toBoard => metrics.toBoard
  | .toCode => metrics.toCode

def extend (window : Nat) (samples : List Nat) (duration : Nat) : List Nat :=
  (if samples.length = window then samples.tail else samples) ++ [duration]

def record (metrics : Metrics) (direction : Direction) (duration : Nat) : Metrics :=
  let metrics := { metrics with syncs := metrics.syncs + 1 }
  match direction with
  | .toBoard => { metrics with toBoard := extend metrics.window metrics.toBoard duration }
  | .toCode => { metrics with toCode := extend metrics.window metrics.toCode duration }

theorem samples_record (metrics : Metrics) (direction other : Direction) (duration : Nat) :
    (metrics.record direction duration).samples other =
      if direction = other then extend metrics.window (metrics.samples other) duration
      else metrics.samples other := by
  cases direction <;> cases other <;> rfl

theorem syncs_record (metrics : Metrics) (direction : Direction) (duration : Nat) :
    (metrics.record direction duration).syncs = metrics.syncs + 1 := by
  cases direction <;> rfl

def countLimit : Nat := UInt32.size

/-- Durations are shorter than this: their seconds are counted in 64 bits. -/
def durationLimit : Nat := UInt64.size * 1000000000

/-- Durations whose sum is none. It breaks off whatever asks for the sum. -/
structure Overflow where
  deriving DecidableEq, Repr

def total (durations : List Nat) : Except Overflow Nat :=
  let sum := durations.foldr (· + ·) 0
  if sum < durationLimit then .ok sum else .error ⟨⟩

def average (metrics : Metrics) (direction : Direction) : Except Overflow (Option Nat) :=
  let samples := metrics.samples direction
  if 0 < samples.length ∧ samples.length < countLimit then
    return some ((← total samples) / samples.length)
  else return none

def maximum (metrics : Metrics) (direction : Direction) : Option Nat :=
  (metrics.samples direction).max?

end Metrics

end Lifeline
