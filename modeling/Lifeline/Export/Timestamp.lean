import Lifeline.Export.Calendar
import Lifeline.Text.Blank
import Lifeline.Text.Digits

/-! Points in time, and how they are written: a date and a time of day with an offset from universal
time. Written ones are in universal time; read ones may have any offset below a day, one-digit
fields, blanks between their parts, and a sixtieth second. -/

set_option autoImplicit false

namespace Lifeline

structure Timestamp where
  seconds : Int
  /-- Nanoseconds within the second; from 10^9 on they belong to a leap second after it. -/
  nanos : Nat
  deriving DecidableEq, Repr

namespace Timestamp

def secondsPerDay : Int := 86400

def padded (width value : Nat) : List Char :=
  let digits := Nat.toDigits 10 value
  List.replicate (width - digits.length) '0' ++ digits

def yearText (year : Int) : List Char :=
  if 0 ≤ year ∧ year ≤ 9999 then padded 4 year.toNat
  else (if year < 0 then '-' else '+') :: padded 4 year.natAbs

/-- The fraction of a second in the fewest of 0, 3, 6 or 9 digits that are exact. -/
def fractionText (nanos : Nat) : List Char :=
  if nanos = 0 then []
  else if nanos % 1000000 = 0 then '.' :: padded 3 (nanos / 1000000)
  else if nanos % 1000 = 0 then '.' :: padded 6 (nanos / 1000)
  else '.' :: padded 9 nanos

def text (time : Timestamp) : String :=
  let date := Date.ofDays (Int.fdiv time.seconds secondsPerDay)
  let ofDay := (Int.fmod time.seconds secondsPerDay).toNat
  let leap := if 1000000000 ≤ time.nanos then 1 else 0
  String.ofList (yearText date.year ++ '-' :: padded 2 date.month ++ '-' :: padded 2 date.day ++
    'T' :: padded 2 (ofDay / 3600) ++ ':' :: padded 2 (ofDay / 60 % 60) ++
    ':' :: padded 2 (ofDay % 60 + leap) ++ fractionText (time.nanos - leap * 1000000000) ++ ['Z'])

/-! Reading. Each step gives what it found and the text after it. -/

open Text (skipBlanks)

def number? (limit : Option Nat) (text : List Char) : Option (Nat × List Char) :=
  let run := text.takeWhile Char.isDigit
  let digits := match limit with
    | some limit => run.take limit
    | none => run
  if digits.isEmpty then none else some (Text.decimal digits, text.drop digits.length)

def year? (text : List Char) : Option (Int × List Char) :=
  match skipBlanks text with
  | '-' :: rest => (number? none rest).map fun (value, rest) => (-(value : Int), rest)
  | '+' :: rest => (number? none rest).map fun (value, rest) => ((value : Int), rest)
  | text => (number? (some 4) text).map fun (value, rest) => ((value : Int), rest)

def field? (low high : Nat) (text : List Char) : Option (Nat × List Char) :=
  (number? (some 2) (skipBlanks text)).filter fun (value, _) => low ≤ value && value ≤ high

def mark? (mark : Char) (text : List Char) : Option (List Char) :=
  Text.after? [mark] (skipBlanks text)

/-- A fraction of a second in nanoseconds; digits after the ninth are passed over. -/
def fraction? (text : List Char) : Option (Nat × List Char) :=
  match text with
  | '.' :: rest =>
    let run := rest.takeWhile Char.isDigit
    if run.isEmpty then none
    else some (Text.decimal ((run ++ List.replicate 9 '0').take 9), rest.drop run.length)
  | text => some (0, text)

def pair? : List Char → Option (Nat × List Char)
  | a :: b :: rest =>
    if a.isDigit && b.isDigit then some (Text.decimal [a, b], rest) else none
  | _ => none

/-- An offset in seconds: the letter Z, the letters UTC, or a signed number of hours and minutes. -/
def offset? (text : List Char) : Option (Int × List Char) :=
  if (text.take 3).map Char.toLower = ['u', 't', 'c'] then some (0, text.drop 3)
  else match text with
    | 'Z' :: rest | 'z' :: rest => some (0, rest)
    | sign :: rest => do
      let negative ← if sign = '+' then some false
        else if sign = '-' ∨ sign = '\u2212' then some true
        else none
      let (hours, rest) ← pair? rest
      let (minutes, rest) ← pair? (rest.dropWhile fun c => c == ':' || Text.isBlank c)
      if minutes < 60 ∧ hours < 24 then
        let seconds : Int := hours * 3600 + minutes * 60
        return (if negative then -seconds else seconds, rest)
      else none
    | [] => none

def firstDay : Int := Date.toDays ⟨-262143, 1, 1⟩

def lastDay : Int := Date.toDays ⟨262142, 12, 31⟩

def isHeld (day : Int) : Bool := firstDay ≤ day && day ≤ lastDay

def ofText? (text : String) : Option Timestamp := do
  let (year, text) ← year? text.toList
  let (month, text) ← field? 1 12 (← mark? '-' text)
  let (day, text) ← field? 1 31 (← mark? '-' text)
  let text ← match text with
    | 'T' :: rest | 't' :: rest | ' ' :: rest => some rest
    | _ => none
  let (hour, text) ← field? 0 23 text
  let (minute, text) ← field? 0 59 (← mark? ':' text)
  let (second, text) ← field? 0 60 (← mark? ':' text)
  let (nanos, text) ← fraction? text
  let (offset, text) ← offset? (skipBlanks text)
  let date : Date := ⟨year, month, day⟩
  let leap := if second = 60 then 1 else 0
  let ofDay : Int := hour * 3600 + minute * 60 + (second - leap : Nat)
  let seconds := date.toDays * secondsPerDay + ofDay - offset
  if date.isValid && isHeld date.toDays && isHeld (Int.fdiv seconds secondsPerDay) &&
      (skipBlanks text).isEmpty then
    return ⟨seconds, nanos + leap * 1000000000⟩
  else none

end Timestamp

end Lifeline
