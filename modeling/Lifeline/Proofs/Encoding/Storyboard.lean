import Lifeline.Encoding.Storyboard
import Lifeline.Proofs.Json.RoundTrip
import Lifeline.Proofs.Storyboard.Board

/-! Storyboards and actions from their own records.

An encoded action has the fields of its variant, each of them once, and the record of a part takes
fewer levels than the whole. So decoding with as many levels as the record has gives the action back,
whatever it holds. -/

set_option autoImplicit false

namespace Lifeline

namespace Json

theorem decodeWithin?_write {α : Type} (depth : Json → Nat) (decode : Json → Option α)
    (layout : Layout) {json : Json} (exact : json.isExact = true) :
    decodeWithin? depth decode (write layout json) =
      if depth json ≤ maxDepth then decode json else none := by
  rw [decodeWithin?, read?_write layout exact]
  rfl

theorem mapM_string (texts : List String) : (texts.map string).mapM string? = some texts := by
  induction texts with
  | nil => rfl
  | cons text rest ih =>
    rw [List.map_cons, List.mapM_cons, ih]
    rfl

theorem areExact_string (texts : List String) : areExact (texts.map string) = true := by
  induction texts with
  | nil => rfl
  | cons text rest ih => exact ih

mutual

theorem isReadable_of_isExact (json : Json) (exact : json.isExact = true) :
    json.isReadable = true := by
  match json with
  | .array items => exact areReadable_of_areExact items exact
  | .object members => exact areReadableMembers_of_areExact members exact
  | .null | .bool _ | .number _ | .string _ => rfl

theorem areReadable_of_areExact (items : List Json) (exact : areExact items = true) :
    areReadable items = true := by
  match items with
  | [] => rfl
  | item :: rest =>
    rw [areExact, Bool.and_eq_true] at exact
    rw [areReadable, isReadable_of_isExact item exact.1, areReadable_of_areExact rest exact.2]
    rfl

theorem areReadableMembers_of_areExact (members : List (String × Json))
    (exact : areExactMembers members = true) : areReadableMembers members = true := by
  match members with
  | [] => rfl
  | (_, value) :: rest =>
    rw [areExactMembers, Bool.and_eq_true] at exact
    rw [areReadableMembers, isReadable_of_isExact value exact.1,
      areReadableMembers_of_areExact rest exact.2]
    rfl

end

end Json

namespace Action

mutual

theorem isExact_toJson (action : Action) : action.toJson.isExact = true := by
  match action with
  | .message .. | .activation .. | .deactivation .. | .note .. => rfl
  | .alt condition whenTrue whenFalse otherwise =>
    have first := areExact_allToJson whenTrue
    have second := areExact_allToJson whenFalse
    by_cases empty : otherwise.isEmpty <;>
      simp [toJson, tagged, Json.isExact, Json.areExactMembers, first, second, empty]
  | .loop condition actions | .opt condition actions =>
    have inside := areExact_allToJson actions
    simp [toJson, tagged, Json.isExact, Json.areExactMembers, inside]
  | .par branches =>
    have inside := areExact_branchesToJson branches
    simp [toJson, tagged, Json.isExact, Json.areExactMembers, inside]

theorem areExact_allToJson (actions : List Action) : Json.areExact (allToJson actions) = true := by
  match actions with
  | [] => rfl
  | action :: rest =>
    rw [allToJson, Json.areExact, isExact_toJson action, areExact_allToJson rest]
    rfl

theorem areExact_branchesToJson (branches : List (List Action)) :
    Json.areExact (branchesToJson branches) = true := by
  match branches with
  | [] => rfl
  | branch :: rest =>
    rw [branchesToJson, Json.areExact, Json.isExact, areExact_allToJson branch,
      areExact_branchesToJson rest]
    rfl

end

/-- The tag of an action, and what the fields of its variant hold. -/
def fields : Action → String × List (Option Json)
  | .message source target text =>
    ("message", [some (.string source), some (.string target), some (.string text)])
  | .activation actor => ("activation", [some (.string actor)])
  | .deactivation actor => ("deactivation", [some (.string actor)])
  | .note position text => ("note", [some (.string position), some (.string text)])
  | .alt condition whenTrue whenFalse otherwise =>
    ("alt", [some (.string condition), some (.array (allToJson whenTrue)),
      some (.array (allToJson whenFalse)),
      if otherwise.isEmpty then none else some (.string otherwise)])
  | .loop condition actions =>
    ("loop", [some (.string condition), some (.array (allToJson actions))])
  | .par branches => ("par", [some (.array (branchesToJson branches))])
  | .opt condition actions => ("opt", [some (.string condition), some (.array (allToJson actions))])

theorem tagged?_toJson (action : Action) (held : Bool) :
    Json.tagged? variants held action.toJson = some action.fields := by
  have readable := Json.isReadable_of_isExact _ (isExact_toJson action)
  unfold Json.tagged?
  rw [if_pos readable]
  cases action with
  | alt condition whenTrue whenFalse otherwise =>
    by_cases empty : otherwise.isEmpty <;>
      simp [toJson, tagged, Json.memberOf?, Json.valuesOf, Json.variant?, variants, Json.fields?,
        fields, empty]
  | _ =>
    simp [toJson, tagged, Json.memberOf?, Json.valuesOf, Json.variant?, variants, Json.fields?,
      fields]

theorem depth_toJson_pos (action : Action) : 0 < action.toJson.depth := by
  cases action <;> exact Nat.succ_pos _

mutual

theorem ofJsonWithin?_toJson (action : Action) {depth : Nat} (enough : action.toJson.depth ≤ depth)
    (held : Bool) : ofJsonWithin? depth held action.toJson = some action := by
  obtain ⟨depth, rfl⟩ : ∃ more, depth = more + 1 :=
    Nat.exists_eq_add_one.2 (Nat.lt_of_lt_of_le action.depth_toJson_pos enough)
  rw [ofJsonWithin?, tagged?_toJson]
  match action with
  | .message .. | .activation .. | .deactivation .. | .note .. => rfl
  | .alt condition whenTrue whenFalse otherwise =>
    simp only [toJson, tagged, Json.depth, Json.depthMembers, List.cons_append] at enough
    have first := @mapM_allToJson whenTrue depth (by omega)
    have second := @mapM_allToJson whenFalse depth (by omega)
    -- An empty condition is left out, and what is left out comes back as an empty one.
    by_cases empty : otherwise.isEmpty
    · obtain rfl := String.isEmpty_iff.1 empty
      simp [fields, Json.required?, Json.defaulted?, Json.list?, Json.string?, first, second]
    · simp [fields, Json.required?, Json.defaulted?, Json.list?, Json.string?, first, second, empty]
  | .loop condition actions | .opt condition actions =>
    simp only [toJson, tagged, Json.depth, Json.depthMembers] at enough
    have inside := @mapM_allToJson actions depth (by omega)
    simp [fields, Json.required?, Json.list?, Json.string?, inside]
  | .par branches =>
    simp only [toJson, tagged, Json.depth, Json.depthMembers] at enough
    have inside := @mapM_branchesToJson branches depth (by omega)
    simp [fields, Json.required?, Json.list?, inside]

theorem mapM_allToJson (actions : List Action) {depth : Nat}
    (enough : Json.depthItems (allToJson actions) ≤ depth) :
    (allToJson actions).mapM (ofJsonWithin? depth true) = some actions := by
  match actions with
  | [] => rfl
  | action :: rest =>
    rw [allToJson, Json.depthItems] at enough
    rw [allToJson, List.mapM_cons, ofJsonWithin?_toJson action (by omega),
      mapM_allToJson rest (by omega)]
    rfl

theorem mapM_branchesToJson (branches : List (List Action)) {depth : Nat}
    (enough : Json.depthItems (branchesToJson branches) ≤ depth + 1) :
    (branchesToJson branches).mapM (Json.list? (ofJsonWithin? depth true)) = some branches := by
  match branches with
  | [] => rfl
  | branch :: rest =>
    rw [branchesToJson, Json.depthItems, Json.depth] at enough
    rw [branchesToJson, List.mapM_cons, Json.list?, mapM_allToJson branch (by omega),
      mapM_branchesToJson rest (by omega)]
    rfl

end

theorem ofJson?_toJson (action : Action) : ofJson? action.toJson = some action :=
  ofJsonWithin?_toJson action (Nat.le_refl _) false

theorem mapM_ofJson? (actions : List Action) :
    (allToJson actions).mapM ofJson? = some actions := by
  induction actions with
  | nil => rfl
  | cons action rest ih =>
    rw [allToJson, List.mapM_cons, ofJson?_toJson, ih]
    rfl

theorem ofText?_write (layout : Json.Layout) (action : Action) :
    ofText? (Json.write layout action.toJson) =
      if action.toJson.depth ≤ Json.maxDepth then some action else none := by
  rw [ofText?, Json.decodeWithin?_write _ _ layout action.isExact_toJson, ofJson?_toJson]

end Action

namespace Storyboard

theorem isExact_toJson (board : Storyboard) : board.toJson.isExact = true := by
  have actions := Action.areExact_allToJson board.actions
  have names := Json.areExact_string board.actors.names
  cases title : board.title <;>
    simp [toJson, Json.isExact, Json.areExactMembers, Json.member?, actions, names, title]

def fields (board : Storyboard) : List (Option Json) :=
  [some (.array (board.actors.names.map .string)), some (.array (Action.allToJson board.actions)),
    some (.string board.mode.word), board.title.map .string]

theorem fields?_toJson (board : Storyboard) :
    Json.fields? fieldNames board.toJson = some board.fields := by
  cases title : board.title <;>
    simp [toJson, fields, Json.fields?, fieldNames, Json.memberOf?, Json.valuesOf, Json.member?,
      title]

theorem mode?_word (mode : Mode) : mode? (.string mode.word) = some mode := by
  cases mode <;> rfl

theorem ofJson?_toJson (board : Storyboard) : ofJson? board.toJson = some board := by
  obtain ⟨actors, actions, mode, title⟩ := board
  have names := Json.mapM_string actors.names
  have roster := ofList_names actors
  have inside := Action.mapM_ofJson? actions
  rw [ofJson?, fields?_toJson]
  cases title <;>
    simp [fields, Json.defaulted?, Json.list?, Json.nullable?, Json.string?, mode?_word, names,
      roster, inside]

theorem keptDepth_toJson (board : Storyboard) :
    board.toJson.keptDepth fieldNames fieldNames = board.toJson.depth := by
  rw [Json.keptDepth, fields?_toJson]
  cases title : board.title <;>
    simp [fields, fieldNames, toJson, Json.depth, Json.depthMembers, Json.member?, title]

theorem ofText?_write (layout : Json.Layout) (board : Storyboard) :
    ofText? (Json.write layout board.toJson) =
      if board.toJson.depth ≤ Json.maxDepth then some board else none := by
  have within := Json.decodeWithin?_write (Json.keptDepth fieldNames fieldNames) ofJson? layout
    board.isExact_toJson
  rwa [keptDepth_toJson, ofJson?_toJson] at within

end Storyboard

end Lifeline
