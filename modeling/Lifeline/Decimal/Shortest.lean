/-! The shortest decimal text of a floating-point number.

A finite number m · 2^q stands for the reals that round to it: those up to half a unit away, the ends
included when m is even. Among the decimals in that interval the shortest is chosen, and of the
shortest ones the nearest. For each count of digits, if any decimal of that count lies in the
interval then one of the two neighbours of the number does, so only those are tried. -/

set_option autoImplicit false

namespace Lifeline.Decimal

structure Ratio where
  num : Nat
  den : Nat

def Ratio.binary (m : Nat) (q : Int) : Ratio :=
  if q < 0 then ⟨m, Nat.pow 2 q.natAbs⟩ else ⟨m * Nat.pow 2 q.natAbs, 1⟩

def Ratio.decimal (m : Nat) (k : Int) : Ratio :=
  if k < 0 then ⟨m, Nat.pow 10 k.natAbs⟩ else ⟨m * Nat.pow 10 k.natAbs, 1⟩

def Ratio.less (a b : Ratio) : Bool := a.num * b.den < b.num * a.den

def Ratio.floorDiv (a b : Ratio) : Nat := a.num * b.den / (a.den * b.num)

/-- The reals that round to a number, given by the number and its bounds. -/
structure Interval where
  low : Ratio
  value : Ratio
  high : Ratio
  closed : Bool

def Interval.contains (interval : Interval) (x : Ratio) : Bool :=
  if interval.closed then !x.less interval.low && !interval.high.less x
  else interval.low.less x && x.less interval.high

def Ratio.compareToMiddle (value a b : Ratio) : Ordering :=
  compare (2 * value.num * a.den * b.den) ((a.num * b.den + b.num * a.den) * value.den)

def leadingExponent (value : Ratio) (bound : Int) : Nat → Int
  | 0 => bound
  | fuel + 1 =>
    if value.less (.decimal 1 bound) then leadingExponent value (bound - 1) fuel else bound

/-- The decimals of `count` digits next to a number: the one that is in its interval, the nearer if
both are, and the even one if they are equally near. -/
def onGrid? (interval : Interval) (leading : Int) (count : Nat) : Option (Nat × Int) :=
  let unit := leading - (count - 1 : Nat)
  let below := interval.value.floorDiv (.decimal 1 unit)
  let lower := Ratio.decimal below unit
  let upper := Ratio.decimal (below + 1) unit
  match interval.contains lower, interval.contains upper with
  | true, true =>
    match interval.value.compareToMiddle lower upper with
    | .lt => some (below, unit)
    | .eq => if below % 2 = 0 then some (below, unit) else some (below + 1, unit)
    | .gt => some (below + 1, unit)
  | true, false => some (below, unit)
  | false, true => some (below + 1, unit)
  | false, false => none

/-- The shortest decimal d · 10^k of a positive number m · 2^q; `halved` says that its lower
neighbour is only half as far away as its upper one. -/
def shortest (m : Nat) (q : Int) (halved : Bool) : Nat × Int :=
  let low := if halved then 4 * m - 1 else 4 * m - 2
  let interval : Interval :=
    { low := .binary low (q - 2)
      value := .binary (4 * m) (q - 2)
      high := .binary (4 * m + 2) (q - 2)
      closed := m % 2 == 0 }
  let leading := leadingExponent interval.value 309 700
  ((List.range 17).findSome? fun n => onGrid? interval leading (n + 1)).getD (0, 0)

/-- Digits and a decimal exponent as text: positional from 10^-5 up to 10^16, with an exponent
beyond, and with a fraction wherever it is positional. -/
def layout (digits : List Char) (k : Int) : List Char :=
  let point := digits.length + k
  if 0 ≤ k ∧ point ≤ 16 then digits ++ List.replicate k.toNat '0' ++ ['.', '0']
  else if 0 < point ∧ point ≤ 16 then
    digits.take point.toNat ++ '.' :: digits.drop point.toNat
  else if -5 < point ∧ point ≤ 0 then
    ['0', '.'] ++ List.replicate point.natAbs '0' ++ digits
  else
    let power := (toString (point - 1)).toList
    match digits with
    | [first] => first :: 'e' :: power
    | first :: rest => first :: '.' :: rest ++ 'e' :: power
    | [] => []

def normalize : Nat → Nat × Int → Nat × Int
  | 0, pair => pair
  | fuel + 1, (d, k) => if d ≠ 0 ∧ d % 10 = (0 : Nat) then normalize fuel (d / 10, k + 1) else (d, k)

/-- The leading bit of a significand of 53 bits. Normal numbers leave it out of their bits. -/
def leadingBit : Nat := 4503599627370496

def ofFloat (x : Float) : List Char :=
  let bits := x.toBits.toNat
  let sign := if bits / leadingBit / 2048 = 1 then ['-'] else []
  let exponent : Nat := bits / leadingBit % 2048
  let fraction : Nat := bits % leadingBit
  if exponent = 0 ∧ fraction = 0 then sign ++ ['0', '.', '0']
  else
    let (m, q) : Nat × Int :=
      if exponent = 0 then (fraction, -1074) else (fraction + leadingBit, (exponent : Int) - 1075)
    let (d, k) := normalize 20 (shortest m q (fraction == 0 && exponent > 1))
    sign ++ layout (Nat.toDigits 10 d) k

end Lifeline.Decimal
