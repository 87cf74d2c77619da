import Lifeline.Json.Record
import Lifeline.Proofs.Json.Marks

/-! Written values are read back.

Where a value may come, the marks of a value lead to the value, finished, with the same containers
open. So the text of a value is read as the value, and what decodes a value decodes its text, as far
as its depth allows. -/

set_option autoImplicit false

namespace Lifeline.Json

/-- Members as they are kept in an open object, all of them with readable names. -/
def named (members : List (String × Json)) : List (Option String × Json) :=
  members.map fun (name, value) => (some name, value)

theorem mapM_named {read : Option String × Json → Option (String × Json)}
    (reads : ∀ name value, read (some name, value) = some (name, value))
    (members : List (String × Json)) : (named members).mapM read = some members := by
  induction members with
  | nil => rfl
  | cons member rest ih =>
    rw [named, List.map_cons, List.mapM_cons, ← named, ih, reads]
    rfl

theorem ofMembers_named (members : List (String × Json)) :
    ofMembers (named members) = .object members := by
  rw [ofMembers, mapM_named fun _ _ => rfl]

namespace Reading

mutual

theorem run?_marks (json : Json) {expected : Expected}
    (takes : expected = .value ∨ expected = .firstItem) (containers : List Container)
    (more : List Mark) :
    run? ⟨containers, expected⟩ (json.marks ++ more) = run? ⟨containers, .finished json⟩ more := by
  match json with
  | .array items =>
    have inside := run?_itemMarks items containers more
    rcases takes with rfl | rfl <;> simpa [marks, run?, step?] using inside
  | .object members =>
    have inside := run?_memberMarks members containers more
    rcases takes with rfl | rfl <;> simpa [marks, run?, step?] using inside
  | .string text => rcases takes with rfl | rfl <;> simp [marks, run?, step?, value?]
  | .null | .bool _ | .number _ | .unreadable =>
    rcases takes with rfl | rfl <;> simp [marks, run?, step?, value?]

theorem run?_itemMarks (items : List Json) (containers : List Container) (more : List Mark) :
    run? ⟨.items [] :: containers, .firstItem⟩ (itemMarks items ++ .closeArray :: more) =
      run? ⟨containers, .finished (.array items)⟩ more := by
  match items with
  | [] => simp [itemMarks, run?, step?]
  | item :: rest =>
    have later := run?_moreMarks rest [] item containers more
    rw [itemMarks, List.append_assoc, run?_marks item (.inr rfl)]
    exact later

theorem run?_moreMarks (items done : List Json) (last : Json) (containers : List Container)
    (more : List Mark) :
    run? ⟨.items done.reverse :: containers, .finished last⟩
        (moreMarks items ++ .closeArray :: more) =
      run? ⟨containers, .finished (.array (done ++ last :: items))⟩ more := by
  have grown : last :: done.reverse = (done ++ [last]).reverse := by simp
  match items with
  | [] =>
    simp only [moreMarks, List.nil_append, run?, step?, Option.bind_some]
    rw [grown, List.reverse_reverse]
  | item :: rest =>
    have later := run?_moreMarks rest (done ++ [last]) item containers more
    simp only [moreMarks, List.cons_append, List.append_assoc, run?, step?, Option.bind_some]
    rw [grown, run?_marks item (.inl rfl), later, List.append_assoc]
    rfl

theorem run?_memberMarks (members : List (String × Json)) (containers : List Container)
    (more : List Mark) :
    run? ⟨containers, .name []⟩ (memberMarks members ++ .closeObject :: more) =
      run? ⟨containers, .finished (.object members)⟩ more := by
  match members with
  | [] => simp [memberMarks, run?, step?]
  | (name, value) :: rest =>
    have later := run?_moreMemberMarks rest [] name value containers more
    simp only [memberMarks, List.cons_append, List.append_assoc, run?, step?, Option.bind_some]
    rw [run?_marks value (.inl rfl)]
    exact later

theorem run?_moreMemberMarks (members done : List (String × Json)) (name : String) (last : Json)
    (containers : List Container) (more : List Mark) :
    run? ⟨.members (named done).reverse (some name) :: containers, .finished last⟩
        (moreMemberMarks members ++ .closeObject :: more) =
      run? ⟨containers, .finished (.object (done ++ (name, last) :: members))⟩ more := by
  have grown :
      (some name, last) :: (named done).reverse = (named (done ++ [(name, last)])).reverse := by
    simp [named]
  match members with
  | [] =>
    simp only [moreMemberMarks, List.nil_append, run?, step?, Option.bind_some]
    rw [grown, List.reverse_reverse, ofMembers_named]
  | (next, value) :: rest =>
    have later := run?_moreMemberMarks rest (done ++ [(name, last)]) next value containers more
    simp only [moreMemberMarks, List.cons_append, List.append_assoc, run?, step?, Option.bind_some]
    rw [grown, run?_marks value (.inl rfl), later, List.append_assoc]
    rfl

end

end Reading

theorem read?_write (layout : Layout) {json : Json} (exact : json.isExact = true) :
    read? (write layout json).toList = some json := by
  have read := Reading.run?_marks json (.inl rfl) [] []
  rw [List.append_nil] at read
  rw [read?, Mark.ofText?_write layout exact]
  simp only [Option.bind_eq_bind, Option.bind_some, Reading.start, read]
  rfl

end Lifeline.Json
