import Lifeline.Json.Basic
import Lifeline.Decimal.Shortest

/-! Writing JSON values.

The compact layout has no blanks. The spread layout puts every item and member on a line of its own,
two spaces deeper than its container; an empty container stays on its line. -/

set_option autoImplicit false

namespace Lifeline.Json

def Number.text : Number → List Char
  | .natural value => Nat.toDigits 10 value
  | .negative magnitude => '-' :: Nat.toDigits 10 magnitude
  | .real value => Decimal.ofFloat value

def hexPair (code : Nat) : List Char :=
  [Nat.digitChar (code / 16), Nat.digitChar (code % 16)]

/-- A character inside a string. Only quotes, backslashes and controls need an escape. -/
def escape (c : Char) : List Char :=
  if c = '"' then ['\\', '"']
  else if c = '\\' then ['\\', '\\']
  else if c = '\x08' then ['\\', 'b']
  else if c = '\t' then ['\\', 't']
  else if c = '\n' then ['\\', 'n']
  else if c = '\x0c' then ['\\', 'f']
  else if c = '\r' then ['\\', 'r']
  else if c.toNat < 32 then ['\\', 'u', '0', '0'] ++ hexPair c.toNat
  else [c]

def quote (text : String) : List Char :=
  '"' :: text.toList.flatMap escape ++ ['"']

def atom : Json → List Char
  | .bool true => ['t', 'r', 'u', 'e']
  | .bool false => ['f', 'a', 'l', 's', 'e']
  | .number value => value.text
  | .string value => quote value
  | _ => ['n', 'u', 'l', 'l']

mutual

def compact : Json → List Char
  | .array items => '[' :: compactItems items ++ [']']
  | .object members => '\x7b' :: compactMembers members ++ ['\x7d']
  | value => atom value

def compactItems : List Json → List Char
  | [] => []
  | item :: rest => compact item ++ compactMore rest

def compactMore : List Json → List Char
  | [] => []
  | item :: rest => ',' :: compact item ++ compactMore rest

def compactMembers : List (String × Json) → List Char
  | [] => []
  | (name, value) :: rest => quote name ++ ':' :: compact value ++ compactMoreMembers rest

def compactMoreMembers : List (String × Json) → List Char
  | [] => []
  | (name, value) :: rest => ',' :: quote name ++ ':' :: compact value ++ compactMoreMembers rest

end

def newLine (level : Nat) : List Char := '\n' :: List.replicate (2 * level) ' '

mutual

def spread (level : Nat) : Json → List Char
  | .array [] => ['[', ']']
  | .object [] => ['\x7b', '\x7d']
  | .array (item :: rest) =>
    '[' :: newLine (level + 1) ++ spread (level + 1) item ++ spreadMore (level + 1) rest ++
      newLine level ++ [']']
  | .object ((name, value) :: rest) =>
    '\x7b' :: newLine (level + 1) ++ quote name ++ ':' :: ' ' :: spread (level + 1) value ++
      spreadMoreMembers (level + 1) rest ++ newLine level ++ ['\x7d']
  | value => atom value

def spreadMore (level : Nat) : List Json → List Char
  | [] => []
  | item :: rest => ',' :: newLine level ++ spread level item ++ spreadMore level rest

def spreadMoreMembers (level : Nat) : List (String × Json) → List Char
  | [] => []
  | (name, value) :: rest =>
    ',' :: newLine level ++ quote name ++ ':' :: ' ' :: spread level value ++
      spreadMoreMembers level rest

end

inductive Layout where
  | compact | spread
  deriving DecidableEq, Repr

def write (layout : Layout) (value : Json) : String :=
  match layout with
  | .compact => String.ofList value.compact
  | .spread => String.ofList (value.spread 0)

end Lifeline.Json
