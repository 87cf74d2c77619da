import Lifeline.Json.Read

/-! Decoding records, tagged values and enumerations.

A record is an object, whose unknown members are passed over, or an array of its fields in order,
which may stop before the last ones. A known member must not be repeated. A tagged value is a record
with one more member, or one more item in front, that names the variant; it has to be readable in all
its parts. A value is held when it is a part of a tagged value: then its tag can also be the number
of the variant. -/

set_option autoImplicit false

namespace Lifeline.Json

def valuesOf (name : String) (members : List (String × Json)) : List Json :=
  (members.filter (·.1 == name)).map Prod.snd

/-- The value of a member, if it is there; no answer if it is repeated. -/
def memberOf? (members : List (String × Json)) (name : String) : Option (Option Json) :=
  match valuesOf name members with
  | [] => some none
  | [value] => some (some value)
  | _ => none

def itemsAs? (count : Nat) (items : List Json) : Option (List (Option Json)) :=
  if items.length ≤ count then some (items.map some ++ List.replicate (count - items.length) none)
  else none

def fields? (names : List String) : Json → Option (List (Option Json))
  | .object members => names.mapM (memberOf? members)
  | .array items => itemsAs? names.length items
  | _ => none

/-- The variants of a tagged value: their tags and the names of their fields. -/
abbrev Variants := List (String × List String)

def variant? (variants : Variants) (held : Bool) : Json → Option (String × List String)
  | .string tag => variants.find? (·.1 == tag)
  | .number (.natural index) => if held then variants[index]? else none
  | _ => none

def tagged? (variants : Variants) (held : Bool) (json : Json) :
    Option (String × List (Option Json)) := do
  if json.isReadable then
    match json with
    | .object members =>
      match ← memberOf? members "type" with
      | none => none
      | some tag =>
        let (tag, names) ← variant? variants held tag
        return (tag, ← fields? names json)
    | .array (tag :: items) =>
      let (tag, names) ← variant? variants held tag
      return (tag, ← itemsAs? names.length items)
    | _ => none
  else none

/-- One of several names, alone or as an object with nothing behind the name. -/
def oneOf? {α : Type} (values : List (String × α)) (held : Bool) : Json → Option α
  | .string name => values.lookup name
  | .object [(name, .null)] => values.lookup name
  | .object [(name, .object [])] => if held then values.lookup name else none
  | _ => none

def string? : Json → Option String
  | .string text => some text
  | _ => none

def bool? : Json → Option Bool
  | .bool value => some value
  | _ => none

def nat? : Json → Option Nat
  | .number (.natural value) => some value
  | _ => none

def nat32? (json : Json) : Option Nat := (nat? json).filter (· < UInt32.size)

def list? {α : Type} (decode : Json → Option α) : Json → Option (List α)
  | .array items => items.mapM decode
  | _ => none

def nullable? {α : Type} (decode : Json → Option α) : Json → Option (Option α)
  | .null => some none
  | json => (decode json).map some

def required? {α : Type} (decode : Json → Option α) (field : Option Json) : Option α :=
  field.bind decode

def defaulted? {α : Type} (decode : Json → Option α) (default : α) : Option Json → Option α
  | none => some default
  | some json => decode json

/-- The depth of what a record keeps whole of a value: of its fields only these ones. Unknown members
are passed over, however deep they are. -/
def keptDepth (names whole : List String) (json : Json) : Nat :=
  match fields? names json with
  | none => 0
  | some fields =>
    let kept := (names.zip fields).filter (whole.contains ·.1)
    depthMembers (kept.filterMap fun (name, field) => field.map (name, ·)) + 1

/-- The depth of containers that text may have where it is not passed over. -/
def maxDepth : Nat := 127

def decodeWithin? {α : Type} (depth : Json → Nat) (decode : Json → Option α) (text : String) :
    Option α := do
  let json ← read? text.toList
  if depth json ≤ maxDepth then decode json else none

def decodeText? {α : Type} (names whole : List String) (decode : Json → Option α) (text : String) :
    Option α := do
  let json ← read? text.toList
  if json.keptDepth names whole ≤ maxDepth then decode json else none

end Lifeline.Json
