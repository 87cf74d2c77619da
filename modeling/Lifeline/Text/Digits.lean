/-! Decimal digits and the numbers that they write. -/

set_option autoImplicit false

namespace Lifeline.Text

def digitValue (c : Char) : Nat := c.toNat - '0'.toNat

def decimal (digits : List Char) : Nat :=
  digits.foldl (fun value c => value * 10 + digitValue c) 0

def withoutPlus : List Char → List Char
  | '+' :: rest => rest
  | text => text

/-- Reads a whole text as a number below a bound: digits alone, perhaps after a plus sign. -/
def numberBelow? (bound : Nat) (text : List Char) : Option Nat :=
  let digits := withoutPlus text
  if digits ≠ [] ∧ digits.all Char.isDigit ∧ decimal digits < bound then some (decimal digits)
  else none

end Lifeline.Text
