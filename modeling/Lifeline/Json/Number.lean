import Lifeline.Json.Basic
import Lifeline.Text.Digits

/-! Reading the text of a number.

An integer that fits 64 bits is kept as it is. Any other number becomes a floating-point number: its
digits are gathered as long as they fit 64 bits, the others only count towards the exponent, and one
multiplication or division by a power of ten ends the reading. A result beyond every finite number
is refused. -/

set_option autoImplicit false

namespace Lifeline.Json

structure Numeral where
  negative : Bool
  whole : List Nat
  fraction : Option (List Nat)
  exponent : Option (Bool × List Nat)
  deriving DecidableEq, Repr

namespace Numeral

def digit? (c : Char) : Option Nat :=
  if c.isDigit then some (Text.digitValue c) else none

def digits : List Char → List Nat × List Char
  | [] => ([], [])
  | c :: rest =>
    match digit? c with
    | none => ([], c :: rest)
    | some d => let (more, left) := digits rest; (d :: more, left)

def exponentOf : List Char → Option (Option (Bool × List Nat))
  | [] => some none
  | mark :: rest =>
    if mark = 'e' ∨ mark = 'E' then
      let (negative, rest) : Bool × List Char := match rest with
        | '+' :: rest => (false, rest)
        | '-' :: rest => (true, rest)
        | rest => (false, rest)
      match digits rest with
      | (d :: ds, []) => some (some (negative, d :: ds))
      | _ => none
    else none

/-- Reads a whole text as a number. A leading zero stands alone, and a point has digits on both
sides. -/
def ofText? (text : List Char) : Option Numeral := do
  let (negative, text) : Bool × List Char := match text with
    | '-' :: rest => (true, rest)
    | text => (false, text)
  let (whole, rest) := digits text
  match whole with
  | [] => none
  | 0 :: _ :: _ => none
  | whole =>
    match rest with
    | '.' :: rest =>
      match digits rest with
      | ([], _) => none
      | (fraction, rest) => return ⟨negative, whole, some fraction, ← exponentOf rest⟩
    | rest => return ⟨negative, whole, none, ← exponentOf rest⟩

/-- Gathers digits onto a number while the result is below 2^64; gives the number and how many
digits were not gathered. -/
def gather (value : Nat) : List Nat → Nat × Nat
  | [] => (value, 0)
  | d :: rest =>
    if value * 10 + d < UInt64.size then gather (value * 10 + d) rest else (value, rest.length + 1)

def gatherExponent (value : Nat) : List Nat → Option Nat
  | [] => some value
  | d :: rest => if value * 10 + d < 2147483648 then gatherExponent (value * 10 + d) rest else none

def scaleDown (x : Float) (power : Nat) : Float :=
  if power ≤ 308 then x / Float.ofScientific 1 false power
  else if x == 0 then x
  else scaleDown (x / Float.ofScientific 1 false 308) (power - 308)
termination_by power

def scaleUp? (x : Float) (power : Nat) : Option Float :=
  if power ≤ 308 then
    let scaled := x * Float.ofScientific 1 false power
    if scaled.isInf then none else some scaled
  else if x == 0 then some x
  else none

def scale? (negative : Bool) (significand : Nat) (exponent : Int) : Option Float := do
  let x := significand.toUInt64.toFloat
  let scaled ← if 0 ≤ exponent then scaleUp? x exponent.toNat else some (scaleDown x exponent.natAbs)
  return if negative then -scaled else scaled

def real? (negative : Bool) (significand : Nat) (exponent : Int) :
    Option (Bool × List Nat) → Option Float
  | none => scale? negative significand exponent
  | some (below, power) =>
    match gatherExponent 0 power with
    | some power => scale? negative significand (if below then exponent - power else exponent + power)
    | none =>
      if significand ≠ 0 ∧ below = false then none
      else some (if negative then -0.0 else 0.0)

def value? (numeral : Numeral) : Option Number :=
  let (significand, excess) := gather 0 numeral.whole
  match numeral.fraction, numeral.exponent, excess with
  | none, none, 0 =>
    if numeral.negative then
      if significand = 0 ∨ 9223372036854775808 < significand then
        some (.real (-significand.toUInt64.toFloat))
      else some (.negative significand)
    else some (.natural significand)
  | none, exponent, excess => (real? numeral.negative significand excess exponent).map .real
  | some fraction, exponent, excess =>
    let (significand, left) := gather significand fraction
    let places : Nat := fraction.length - left
    (real? numeral.negative significand (excess - places) exponent).map .real

end Numeral

end Lifeline.Json
