import Lifeline.Proofs.Encoding.Document

/-! Records and their text.

Whatever its strings are, a storyboard, an action or a document comes back from its own text in
either layout, with its actors in their order. Only text that is nested too deeply is refused. -/

set_option autoImplicit false

namespace Lifeline

/-- Records are decoded from their own text if they are not nested too deeply, and only then. -/
theorem decoded_unless_deep (layout : Json.Layout) (board : Storyboard) (action : Action)
    (document : Document) (fits : document.fits = true) :
    Storyboard.ofText? (Json.write layout board.toJson) =
        (if board.toJson.depth ≤ Json.maxDepth then some board else none) ∧
      Action.ofText? (Json.write layout action.toJson) =
        (if action.toJson.depth ≤ Json.maxDepth then some action else none) ∧
      Document.ofText? (Json.write layout document.toJson) =
        (if document.toJson.depth ≤ Json.maxDepth then some document else none) :=
  ⟨board.ofText?_write layout, action.ofText?_write layout, document.ofText?_write layout fits⟩

def quotedStep : Action :=
  .alt "\"ready\"?" [.loop "\\" [.message "Zoë" "B\x01" "1\n2\t3\u2028"]] [] ""

def quotedBoard : Storyboard :=
  ⟨⟨["Zoë", "", "B\x01"], by decide⟩, [quotedStep, .par [[], [.note "left of" "😀"]]], .split,
    some ""⟩

def farDocument : Document :=
  ⟨[⟨[.participant .queue "Zoë" none .none, .note "😀" (some "B\x7f") .over .none,
      .alternative "\"" [.mk "\\u" [.autonumber (some 4294967295) .none] .none] .none],
    ⟨1, 1, 0, 18446744073709551615⟩, false⟩], .none⟩

theorem decoded_unless_deep_quoted : farDocument.fits = true ∧
    Storyboard.ofText? (Json.write .spread quotedBoard.toJson) = some quotedBoard ∧
    Action.ofText? (Json.write .spread quotedStep.toJson) = some quotedStep ∧
    Document.ofText? (Json.write .spread farDocument.toJson) = some farDocument := by
  have fits : farDocument.fits = true := by decide
  obtain ⟨board, action, document⟩ :=
    decoded_unless_deep .spread quotedBoard quotedStep farDocument fits
  rw [if_pos (by decide)] at board action document
  exact ⟨fits, board, action, document⟩

def nestedSteps : Nat → List Action
  | 0 => []
  | count + 1 => [.opt "again" (nestedSteps count)]

theorem depth_nestedSteps (count : Nat) :
    Json.depthItems (Action.allToJson (nestedSteps count)) = 2 * count := by
  induction count with
  | zero => rfl
  | succ count ih =>
    simp [nestedSteps, Action.allToJson, Action.toJson, tagged, Json.depthItems, Json.depth,
      Json.depthMembers, ih]
    omega

/-- Around its steps a storyboard has two containers: itself and the list of them. -/
def nestedBoard (count : Nat) : Storyboard := ⟨.empty, nestedSteps count, .gui, none⟩

theorem depth_nestedBoard (count : Nat) : (nestedBoard count).toJson.depth = 2 * count + 2 := by
  simp [nestedBoard, Storyboard.toJson, Roster.empty, Json.member?, Json.depth, Json.depthMembers,
    Json.depthItems, depth_nestedSteps]

/-- With sixty-three steps around one another a storyboard is not decoded from its own text. -/
theorem not_decoded_deep :
    Storyboard.ofText? (Json.write .compact (nestedBoard 63).toJson) ≠ some (nestedBoard 63) ∧
      Storyboard.ofText? (Json.write .spread (nestedBoard 63).toJson) ≠ some (nestedBoard 63) := by
  rw [Storyboard.ofText?_write, Storyboard.ofText?_write, depth_nestedBoard, if_neg (by decide)]
  exact ⟨nofun, nofun⟩

end Lifeline
