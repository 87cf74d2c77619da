import Lifeline.Encoding.Document
import Lifeline.Proofs.Encoding.Storyboard

/-! Documents from their own records.

The numbers of a document are read back if they fit: its places into 64 bits, the start of a
numbering into 32. Then decoding the text of a document gives the document. -/

set_option autoImplicit false

namespace Lifeline

/-! ## Numbers that fit -/

def Span.fits (span : Span) : Bool :=
  span.line < UInt64.size && span.column < UInt64.size && span.start < UInt64.size &&
    span.stop < UInt64.size

mutual

/-- Whether 64 bits are enough for the places in a statement, and 32 for the start of a numbering. -/
def Statement.fits : Statement → Bool
  | .alternative _ branches span | .parallel branches span => branchesFit branches && span.fits
  | .loop _ statements span | .optional _ statements span => statementsFit statements && span.fits
  | .autonumber first span => first.all (· < UInt32.size) && span.fits
  | .participant _ _ _ span | .message _ _ _ _ _ _ span | .note _ _ _ span | .activation _ span
  | .deactivation _ span | .title _ span | .error _ span => span.fits

def statementsFit : List Statement → Bool
  | [] => true
  | statement :: rest => statement.fits && statementsFit rest

def Branch.fits : Branch → Bool
  | .mk _ statements span => statementsFit statements && span.fits

def branchesFit : List Branch → Bool
  | [] => true
  | branch :: rest => branch.fits && branchesFit rest

end

def Diagram.fits (diagram : Diagram) : Bool := statementsFit diagram.statements && diagram.span.fits

def Document.fits (document : Document) : Bool :=
  document.diagrams.all Diagram.fits && document.span.fits

/-! ## Ranges -/

namespace Span

variable {span : Span}

theorem isExact_toJson (small : span.fits = true) : span.toJson.isExact = true := by
  simpa [toJson, Json.isExact, Json.areExactMembers, Json.nat, fits, and_assoc] using small

theorem ofJson?_toJson (span : Span) : ofJson? span.toJson = some span := by
  simp [ofJson?, toJson, Json.fields?, Json.memberOf?, Json.valuesOf, Json.required?, Json.nat?,
    Json.nat]

theorem depth_toJson (span : Span) : span.toJson.depth = 1 := rfl

end Span

/-! ## Statements -/

mutual

theorem Statement.isExact_toJson (statement : Statement) (small : statement.fits = true) :
    statement.toJson.isExact = true := by
  match statement with
  | .participant role name nickname span =>
    have place := Span.isExact_toJson small
    cases nickname <;>
      simp [Statement.toJson, tagged, Json.isExact, Json.areExactMembers, Json.member?, place]
  | .note text target side span =>
    have place := Span.isExact_toJson small
    cases target <;>
      simp [Statement.toJson, tagged, Json.isExact, Json.areExactMembers, Json.member?, place]
  | .message .. | .activation .. | .deactivation .. | .title .. | .error .. =>
    have place := Span.isExact_toJson small
    simp [Statement.toJson, tagged, Json.isExact, Json.areExactMembers, place]
  | .autonumber first span =>
    rw [Statement.fits, Bool.and_eq_true] at small
    have place := Span.isExact_toJson small.2
    cases first with
    | none =>
      simp [Statement.toJson, tagged, Json.isExact, Json.areExactMembers, Json.member?, place]
    | some first =>
      have wide : first < UInt64.size := Nat.lt_trans (of_decide_eq_true small.1) (by decide)
      simp [Statement.toJson, tagged, Json.isExact, Json.areExactMembers, Json.member?, Json.nat,
        place, wide]
  | .alternative condition branches span | .parallel branches span =>
    rw [Statement.fits, Bool.and_eq_true] at small
    have place := Span.isExact_toJson small.2
    have inside := areExact_branchesToJson branches small.1
    simp [Statement.toJson, tagged, Json.isExact, Json.areExactMembers, place, inside]
  | .loop condition statements span | .optional condition statements span =>
    rw [Statement.fits, Bool.and_eq_true] at small
    have place := Span.isExact_toJson small.2
    have inside := areExact_statementsToJson statements small.1
    simp [Statement.toJson, tagged, Json.isExact, Json.areExactMembers, place, inside]

theorem areExact_statementsToJson (statements : List Statement)
    (small : statementsFit statements = true) :
    Json.areExact (statementsToJson statements) = true := by
  match statements with
  | [] => rfl
  | statement :: rest =>
    rw [statementsFit, Bool.and_eq_true] at small
    rw [statementsToJson, Json.areExact, statement.isExact_toJson small.1,
      areExact_statementsToJson rest small.2]
    rfl

theorem Branch.isExact_toJson (branch : Branch) (small : branch.fits = true) :
    branch.toJson.isExact = true := by
  match branch with
  | .mk condition statements span =>
    rw [Branch.fits, Bool.and_eq_true] at small
    have place := Span.isExact_toJson small.2
    have inside := areExact_statementsToJson statements small.1
    simp [Branch.toJson, Json.isExact, Json.areExactMembers, place, inside]

theorem areExact_branchesToJson (branches : List Branch) (small : branchesFit branches = true) :
    Json.areExact (branchesToJson branches) = true := by
  match branches with
  | [] => rfl
  | branch :: rest =>
    rw [branchesFit, Bool.and_eq_true] at small
    rw [branchesToJson, Json.areExact, branch.isExact_toJson small.1,
      areExact_branchesToJson rest small.2]
    rfl

end

namespace Statement

def fields : Statement → String × List (Option Json)
  | .participant role name nickname span =>
    ("participant", [some (.string role.word), some (.string name), nickname.map .string,
      some span.toJson])
  | .message source target text arrow isAsync isReturn span =>
    ("message", [some (.string source), some (.string target), some (.string text),
      some (.string arrow), some (.bool isAsync), some (.bool isReturn), some span.toJson])
  | .alternative condition branches span =>
    ("alternative", [some (.string condition), some (.array (branchesToJson branches)),
      some span.toJson])
  | .loop condition statements span =>
    ("loop", [some (.string condition), some (.array (statementsToJson statements)),
      some span.toJson])
  | .parallel branches span =>
    ("parallel", [some (.array (branchesToJson branches)), some span.toJson])
  | .optional condition statements span =>
    ("optional", [some (.string condition), some (.array (statementsToJson statements)),
      some span.toJson])
  | .note text target side span =>
    ("note", [some (.string text), target.map .string, some (.string side.word), some span.toJson])
  | .activation target span => ("activation", [some (.string target), some span.toJson])
  | .deactivation target span => ("deactivation", [some (.string target), some span.toJson])
  | .title text span => ("title", [some (.string text), some span.toJson])
  | .autonumber first span => ("autonumber", [first.map .nat, some span.toJson])
  | .error text span => ("error", [some (.string text), some span.toJson])

theorem tagged?_toJson (statement : Statement) (small : statement.fits = true) (held : Bool) :
    Json.tagged? variants held statement.toJson = some statement.fields := by
  have readable := Json.isReadable_of_isExact _ (statement.isExact_toJson small)
  unfold Json.tagged?
  rw [if_pos readable]
  cases statement with
  | participant role name nickname span =>
    cases nickname <;>
      simp [toJson, tagged, Json.memberOf?, Json.valuesOf, Json.variant?, variants, Json.fields?,
        Json.member?, fields]
  | note text target side span =>
    cases target <;>
      simp [toJson, tagged, Json.memberOf?, Json.valuesOf, Json.variant?, variants, Json.fields?,
        Json.member?, fields]
  | autonumber first span =>
    cases first <;>
      simp [toJson, tagged, Json.memberOf?, Json.valuesOf, Json.variant?, variants, Json.fields?,
        Json.member?, fields]
  | _ =>
    simp [toJson, tagged, Json.memberOf?, Json.valuesOf, Json.variant?, variants, Json.fields?,
      fields]

theorem depth_toJson_pos (statement : Statement) : 0 < statement.toJson.depth := by
  cases statement <;> exact Nat.succ_pos _

theorem role?_word (role : Role) : role? (.string role.word) = some role := by
  cases role <;> rfl

theorem side?_word (side : NoteSide) : side? (.string side.word) = some side := by
  cases side <;> rfl

theorem ofJsonWithin?_participant (role : Role) (name : String) (nickname : Option String)
    (span : Span) (small : (participant role name nickname span).fits = true) (depth : Nat)
    (held : Bool) :
    ofJsonWithin? (depth + 1) held (participant role name nickname span).toJson =
      some (.participant role name nickname span) := by
  rw [ofJsonWithin?, tagged?_toJson _ small]
  cases nickname <;>
    simp [fields, Json.required?, Json.defaulted?, Json.nullable?, Json.string?, role?_word,
      Span.ofJson?_toJson]

theorem ofJsonWithin?_note (text : String) (target : Option String) (side : NoteSide)
    (span : Span) (small : (note text target side span).fits = true) (depth : Nat) (held : Bool) :
    ofJsonWithin? (depth + 1) held (note text target side span).toJson =
      some (.note text target side span) := by
  rw [ofJsonWithin?, tagged?_toJson _ small]
  cases target <;>
    simp [fields, Json.required?, Json.defaulted?, Json.nullable?, Json.string?, side?_word,
      Span.ofJson?_toJson]

theorem ofJsonWithin?_autonumber (first : Option Nat) (span : Span)
    (small : (autonumber first span).fits = true) (depth : Nat) (held : Bool) :
    ofJsonWithin? (depth + 1) held (autonumber first span).toJson =
      some (.autonumber first span) := by
  rw [ofJsonWithin?, tagged?_toJson _ small]
  rw [Statement.fits, Bool.and_eq_true] at small
  cases first with
  | none => simp [fields, Json.required?, Json.defaulted?, Span.ofJson?_toJson]
  | some first =>
    have narrow : first < UInt32.size := of_decide_eq_true small.1
    simp [fields, Json.required?, Json.defaulted?, Json.nullable?, Json.nat32?, Json.nat,
      Json.nat?, Option.filter, narrow, Span.ofJson?_toJson]

mutual

theorem ofJsonWithin?_toJson (statement : Statement) (small : statement.fits = true) {depth : Nat}
    (enough : statement.toJson.depth ≤ depth) (held : Bool) :
    ofJsonWithin? depth held statement.toJson = some statement := by
  obtain ⟨depth, rfl⟩ : ∃ more, depth = more + 1 :=
    Nat.exists_eq_add_one.2 (Nat.lt_of_lt_of_le statement.depth_toJson_pos enough)
  match statement with
  | .participant role name nickname span =>
    exact ofJsonWithin?_participant role name nickname span small depth held
  | .note text target side span => exact ofJsonWithin?_note text target side span small depth held
  | .autonumber first span => exact ofJsonWithin?_autonumber first span small depth held
  | .message .. | .activation .. | .deactivation .. | .title .. | .error .. =>
    rw [ofJsonWithin?, tagged?_toJson _ small]
    simp [fields, Json.required?, Json.string?, Json.bool?, Span.ofJson?_toJson]
  | .alternative condition branches span | .parallel branches span =>
    rw [ofJsonWithin?, tagged?_toJson _ small]
    rw [Statement.fits, Bool.and_eq_true] at small
    simp only [toJson, tagged, Json.depth, Json.depthMembers] at enough
    have inside := @mapM_branchesToJson branches small.1 depth (by omega)
    simp [fields, Json.required?, Json.list?, Json.string?, Span.ofJson?_toJson, inside]
  | .loop condition statements span | .optional condition statements span =>
    rw [ofJsonWithin?, tagged?_toJson _ small]
    rw [Statement.fits, Bool.and_eq_true] at small
    simp only [toJson, tagged, Json.depth, Json.depthMembers] at enough
    have inside := @mapM_statementsToJson statements small.1 depth (by omega)
    simp [fields, Json.required?, Json.list?, Json.string?, Span.ofJson?_toJson, inside]

theorem mapM_statementsToJson (statements : List Statement)
    (small : statementsFit statements = true) {depth : Nat}
    (enough : Json.depthItems (statementsToJson statements) ≤ depth) :
    (statementsToJson statements).mapM (ofJsonWithin? depth true) = some statements := by
  match statements with
  | [] => rfl
  | statement :: rest =>
    rw [statementsFit, Bool.and_eq_true] at small
    rw [statementsToJson, Json.depthItems] at enough
    rw [statementsToJson, List.mapM_cons, ofJsonWithin?_toJson statement small.1 (by omega),
      mapM_statementsToJson rest small.2 (by omega)]
    rfl

theorem branchOf?_toJson (branch : Branch) (small : branch.fits = true) {depth : Nat}
    (enough : branch.toJson.depth ≤ depth + 2) :
    branchOf? (ofJsonWithin? depth true) branch.toJson = some branch := by
  match branch with
  | .mk condition statements span =>
    rw [Branch.fits, Bool.and_eq_true] at small
    simp only [Branch.toJson, Json.depth, Json.depthMembers] at enough
    have inside := @mapM_statementsToJson statements small.1 depth (by omega)
    simp [Branch.toJson, branchOf?, Json.fields?, Json.memberOf?, Json.valuesOf, Json.required?,
      Json.list?, Json.string?, Span.ofJson?_toJson, inside]

theorem mapM_branchesToJson (branches : List Branch) (small : branchesFit branches = true)
    {depth : Nat} (enough : Json.depthItems (branchesToJson branches) ≤ depth + 2) :
    (branchesToJson branches).mapM (branchOf? (ofJsonWithin? depth true)) = some branches := by
  match branches with
  | [] => rfl
  | branch :: rest =>
    rw [branchesFit, Bool.and_eq_true] at small
    rw [branchesToJson, Json.depthItems] at enough
    rw [branchesToJson, List.mapM_cons, branchOf?_toJson branch small.1 (by omega),
      mapM_branchesToJson rest small.2 (by omega)]
    rfl

end

theorem ofJson?_toJson (statement : Statement) (small : statement.fits = true) :
    ofJson? statement.toJson = some statement :=
  ofJsonWithin?_toJson statement small (Nat.le_refl _) false

theorem mapM_ofJson? (statements : List Statement) (small : statementsFit statements = true) :
    (statementsToJson statements).mapM ofJson? = some statements := by
  induction statements with
  | nil => rfl
  | cons statement rest ih =>
    rw [statementsFit, Bool.and_eq_true] at small
    rw [statementsToJson, List.mapM_cons, ofJson?_toJson statement small.1, ih small.2]
    rfl

end Statement

/-! ## Documents -/

namespace Diagram

theorem isExact_toJson (diagram : Diagram) (small : diagram.fits = true) :
    diagram.toJson.isExact = true := by
  rw [fits, Bool.and_eq_true] at small
  have inside := areExact_statementsToJson diagram.statements small.1
  have place := Span.isExact_toJson small.2
  simp [toJson, Json.isExact, Json.areExactMembers, inside, place]

theorem fields?_toJson (diagram : Diagram) : Json.fields? fieldNames diagram.toJson =
    some [some (.array (statementsToJson diagram.statements)), some diagram.span.toJson,
      some (.bool diagram.terminated)] := by
  simp [toJson, fieldNames, Json.fields?, Json.memberOf?, Json.valuesOf]

theorem ofJson?_toJson (diagram : Diagram) (small : diagram.fits = true) :
    ofJson? diagram.toJson = some diagram := by
  rw [fits, Bool.and_eq_true] at small
  have inside := Statement.mapM_ofJson? diagram.statements small.1
  rw [ofJson?, fields?_toJson]
  simp [Json.required?, Json.list?, Json.bool?, Span.ofJson?_toJson, inside]

/-- Of a diagram only the statements are kept whole, and nothing in it is deeper. -/
theorem keptDepth_toJson (diagram : Diagram) :
    diagram.toJson.keptDepth fieldNames ["statements"] = diagram.toJson.depth := by
  rw [Json.keptDepth, fields?_toJson]
  simp [fieldNames, toJson, Json.depth, Json.depthMembers, Span.depth_toJson]

end Diagram

namespace Document

theorem isExact_toJson (document : Document) (small : document.fits = true) :
    document.toJson.isExact = true := by
  rw [fits, Bool.and_eq_true] at small
  have inside (diagrams : List Diagram) (small : diagrams.all Diagram.fits = true) :
      Json.areExact (diagrams.map Diagram.toJson) = true := by
    induction diagrams with
    | nil => rfl
    | cons diagram rest ih =>
      rw [List.all_cons, Bool.and_eq_true] at small
      rw [List.map_cons, Json.areExact, diagram.isExact_toJson small.1, ih small.2]
      rfl
  simp [toJson, Json.isExact, Json.areExactMembers, inside _ small.1, Span.isExact_toJson small.2]

theorem fields?_toJson (document : Document) : Json.fields? fieldNames document.toJson =
    some [some (.array (document.diagrams.map Diagram.toJson)), some document.span.toJson] := by
  simp [toJson, fieldNames, Json.fields?, Json.memberOf?, Json.valuesOf]

theorem ofJson?_toJson (document : Document) (small : document.fits = true) :
    ofJson? document.toJson = some document := by
  rw [fits, Bool.and_eq_true] at small
  have inside (diagrams : List Diagram) (small : diagrams.all Diagram.fits = true) :
      (diagrams.map Diagram.toJson).mapM Diagram.ofJson? = some diagrams := by
    induction diagrams with
    | nil => rfl
    | cons diagram rest ih =>
      rw [List.all_cons, Bool.and_eq_true] at small
      rw [List.map_cons, List.mapM_cons, diagram.ofJson?_toJson small.1, ih small.2]
      rfl
  rw [ofJson?, fields?_toJson]
  simp [Json.required?, Json.list?, Span.ofJson?_toJson, inside _ small.1]

theorem keptDepth_toJson (document : Document) :
    keptDepth document.toJson = document.toJson.depth := by
  have inside (diagrams : List Diagram) :
      ((diagrams.map Diagram.toJson).map
        (Json.keptDepth Diagram.fieldNames ["statements"])).foldr max 0 =
      Json.depthItems (diagrams.map Diagram.toJson) := by
    induction diagrams with
    | nil => rfl
    | cons diagram rest ih =>
      rw [List.map_cons, List.map_cons, List.foldr_cons, ih, diagram.keptDepth_toJson]
      rfl
  rw [keptDepth, fields?_toJson]
  dsimp only
  rw [inside]
  simp [toJson, Json.depth, Json.depthMembers, Span.depth_toJson]

theorem ofText?_write (layout : Json.Layout) (document : Document) (small : document.fits = true) :
    ofText? (Json.write layout document.toJson) =
      if document.toJson.depth ≤ Json.maxDepth then some document else none := by
  rw [ofText?, Json.decodeWithin?_write _ _ layout (document.isExact_toJson small),
    keptDepth_toJson, ofJson?_toJson document small]

end Document

end Lifeline
