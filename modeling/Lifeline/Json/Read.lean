import Lifeline.Json.Mark

/-! Reading JSON text: a machine that takes one mark after the other.

It keeps the containers that are open and what may come next. Text is a value when the marks lead
from the start, where a value must come, to a finished value with no container open. -/

set_option autoImplicit false

namespace Lifeline.Json

/-- An open container and what it holds so far, newest first. -/
inductive Container where
  | items (done : List Json)
  | members (done : List (Option String × Json)) (name : Option String)

inductive Expected where
  | value
  | firstItem
  | name (done : List (Option String × Json))
  | colon (done : List (Option String × Json)) (name : Option String)
  | finished (value : Json)

structure Reading where
  containers : List Container
  expected : Expected

/-- An object with an unreadable name is unreadable as a whole. -/
def ofMembers (members : List (Option String × Json)) : Json :=
  match members.mapM fun (name, value) => name.map (·, value) with
  | some members => .object members
  | none => .unreadable

namespace Reading

def start : Reading := ⟨[], .value⟩

def value? (reading : Reading) (value : Json) : Option Reading :=
  match reading.expected with
  | .value | .firstItem => some ⟨reading.containers, .finished value⟩
  | _ => none

def step? (reading : Reading) (mark : Mark) : Option Reading :=
  match mark, reading.expected, reading.containers with
  | .atom value, _, _ => reading.value? value
  | .string text, .name done, containers => some ⟨containers, .colon done text⟩
  | .string text, _, _ => reading.value? (text.elim .unreadable .string)
  | .openArray, .value, containers => some ⟨.items [] :: containers, .firstItem⟩
  | .openArray, .firstItem, containers => some ⟨.items [] :: containers, .firstItem⟩
  | .openObject, .value, containers => some ⟨containers, .name []⟩
  | .openObject, .firstItem, containers => some ⟨containers, .name []⟩
  | .closeArray, .firstItem, .items done :: containers =>
    some ⟨containers, .finished (.array done.reverse)⟩
  | .closeArray, .finished value, .items done :: containers =>
    some ⟨containers, .finished (.array (value :: done).reverse)⟩
  | .closeObject, .name [], containers => some ⟨containers, .finished (.object [])⟩
  | .closeObject, .finished value, .members done name :: containers =>
    some ⟨containers, .finished (ofMembers ((name, value) :: done).reverse)⟩
  | .comma, .finished value, .items done :: containers =>
    some ⟨.items (value :: done) :: containers, .value⟩
  | .comma, .finished value, .members done name :: containers =>
    some ⟨containers, .name ((name, value) :: done)⟩
  | .colon, .colon done name, containers => some ⟨.members done name :: containers, .value⟩
  | _, _, _ => none

def run? (reading : Reading) : List Mark → Option Reading
  | [] => some reading
  | mark :: rest => (reading.step? mark).bind (·.run? rest)

def result? (reading : Reading) : Option Json :=
  match reading with
  | ⟨[], .finished value⟩ => some value
  | _ => none

end Reading

/-- The value that a text writes; none if it writes none or more than one. -/
def read? (text : List Char) : Option Json := do
  (← Reading.start.run? (← Mark.ofText? text)).result?

end Lifeline.Json
