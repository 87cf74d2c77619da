/-! JSON values.

The members of an object are kept as they are written, in order and with repeated names; a reader
of records judges them. A value can also be well formed and yet stand for nothing, such as a number
beyond every floating-point number or a text with half of a surrogate pair: it can be passed over,
but not held. -/

set_option autoImplicit false

namespace Lifeline

inductive Json.Number where
  | natural (value : Nat)
  | negative (magnitude : Nat)
  | real (value : Float)

inductive Json where
  | null
  | bool (value : Bool)
  | number (value : Json.Number)
  | string (value : String)
  | array (items : List Json)
  | object (members : List (String × Json))
  | unreadable

namespace Json

def nat (value : Nat) : Json := .number (.natural value)

def optional {α : Type} (encode : α → Json) : Option α → Json
  | none => .null
  | some value => encode value

def member? {α : Type} (name : String) (encode : α → Json) : Option α → List (String × Json)
  | none => []
  | some value => [(name, encode value)]

mutual

/-- The number of containers around the innermost value, itself included if it is one. -/
def depth : Json → Nat
  | .array items => depthItems items + 1
  | .object members => depthMembers members + 1
  | _ => 0

def depthItems : List Json → Nat
  | [] => 0
  | item :: rest => max (depth item) (depthItems rest)

def depthMembers : List (String × Json) → Nat
  | [] => 0
  | (_, value) :: rest => max (depth value) (depthMembers rest)

end

mutual

/-- Whether a value can be held: no part of it is unreadable. -/
def isReadable : Json → Bool
  | .array items => areReadable items
  | .object members => areReadableMembers members
  | .unreadable => false
  | _ => true

def areReadable : List Json → Bool
  | [] => true
  | item :: rest => isReadable item && areReadable rest

def areReadableMembers : List (String × Json) → Bool
  | [] => true
  | (_, value) :: rest => isReadable value && areReadableMembers rest

end

def Number.same : Number → Number → Bool
  | .natural a, .natural b | .negative a, .negative b => a == b
  | .real a, .real b => a == b
  | _, _ => false

mutual

/-- Equality that does not ask for the order of members. -/
def same : Json → Json → Bool
  | .null, .null => true
  | .bool a, .bool b => a == b
  | .number a, .number b => a.same b
  | .string a, .string b => a == b
  | .array a, .array b => sameAll a b
  | .object a, .object b => a.length == b.length && sameMembers a b
  | _, _ => false

def sameAll : List Json → List Json → Bool
  | [], [] => true
  | a :: as, b :: bs => same a b && sameAll as bs
  | _, _ => false

def sameMembers : List (String × Json) → List (String × Json) → Bool
  | [], _ => true
  | (name, value) :: rest, members => (members.lookup name).any (same value) && sameMembers rest members

end

end Json

end Lifeline
