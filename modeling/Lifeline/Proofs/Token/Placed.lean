import Lifeline.Token.Scan

/-! Tokens in their places.

The tokens of a run of lexemes, without the end mark that follows the last of them. What follows a
run starts at the place after it, so runs can be read one after the other. -/

set_option autoImplicit false

namespace Lifeline.Token

def spelled (lexemes : List Lexeme) : List Char := (lexemes.map Lexeme.text).flatten

@[simp] theorem spelled_cons (lexeme : Lexeme) (rest : List Lexeme) :
    spelled (lexeme :: rest) = lexeme.text ++ spelled rest := rfl

theorem spelled_lexemes (lineStarts : Bool) (text : List Char) :
    spelled (lexemes lineStarts text) = text :=
  flatten_lexemes lineStarts text

def placedAt (position : Position) (lexeme : Lexeme) : Option Token :=
  lexeme.kind.map fun kind =>
    .new kind (String.ofList lexeme.text) position.line position.column position.offset

def placed (position : Position) : List Lexeme → List Token
  | [] => []
  | lexeme :: rest =>
    (placedAt position lexeme).toList ++ placed (position.advance lexeme.text) rest

@[simp] theorem placed_nil (position : Position) : placed position [] = [] := rfl

@[simp] theorem placed_blank (position : Position) (text : List Char) (rest : List Lexeme) :
    placed position (⟨none, text⟩ :: rest) = placed (position.advance text) rest := rfl

@[simp] theorem placed_token (position : Position) (kind : Kind) (text : List Char)
    (rest : List Lexeme) :
    placed position (⟨some kind, text⟩ :: rest) =
      .new kind (String.ofList text) position.line position.column position.offset ::
        placed (position.advance text) rest := rfl

theorem placed_append (position : Position) (first rest : List Lexeme) :
    placed position (first ++ rest) =
      placed position first ++ placed (position.advance (spelled first)) rest := by
  induction first generalizing position with
  | nil => rfl
  | cons lexeme first ih =>
    simp only [List.cons_append, placed, ih, spelled_cons, Position.advance_append, List.append_assoc]

theorem map_kind_placed (position : Position) (lexemes : List Lexeme) :
    (placed position lexemes).map Token.kind = lexemes.filterMap Lexeme.kind := by
  induction lexemes generalizing position with
  | nil => rfl
  | cons lexeme rest ih =>
    rcases lexeme with ⟨_ | kind, text⟩
    · exact ih _
    · exact congrArg (kind :: ·) (ih _)

theorem mem_placed {position : Position} {lexemes : List Lexeme} {token : Token}
    (member : token ∈ placed position lexemes) :
    ∃ lexeme ∈ lexemes, lexeme.kind = some token.kind ∧ lexeme.text = token.text.toList := by
  induction lexemes generalizing position with
  | nil => cases member
  | cons lexeme rest ih =>
    -- Tokens of the other lexemes are found among these.
    have later (member : token ∈ placed (position.advance lexeme.text) rest) :
        ∃ other ∈ lexeme :: rest, other.kind = some token.kind ∧
          other.text = token.text.toList := by
      obtain ⟨other, inside, same⟩ := ih member
      exact ⟨other, List.mem_cons_of_mem lexeme inside, same⟩
    rcases lexeme with ⟨_ | kind, text⟩
    · exact later member
    · rcases List.mem_cons.1 member with rfl | member
      · exact ⟨_, List.mem_cons_self, rfl, String.toList_ofList.symm⟩
      · exact later member

theorem length_of_mem {position : Position} {lexemes : List Lexeme} {token : Token}
    (member : token ∈ placed position lexemes) : token.length = token.text.utf8ByteSize := by
  induction lexemes generalizing position with
  | nil => cases member
  | cons lexeme rest ih =>
    rcases lexeme with ⟨_ | kind, text⟩
    · exact ih member
    · rcases List.mem_cons.1 member with rfl | member
      · rfl
      · exact ih member

theorem locate_eq_placed (position : Position) (lexemes : List Lexeme) :
    locate position lexemes =
      placed position lexemes ++
        [endOfInput (position.advance (spelled lexemes)).line
          (position.advance (spelled lexemes)).column
          (position.advance (spelled lexemes)).offset] := by
  induction lexemes generalizing position with
  | nil => rfl
  | cons lexeme rest ih =>
    rcases lexeme with ⟨_ | kind, text⟩ <;> simp [locate, ih, Position.advance_append]

theorem utf8ByteSize_ofList (text : List Char) :
    (String.ofList text).utf8ByteSize = Text.byteSize text := by
  induction text with
  | nil => rfl
  | cons c rest ih =>
    have apart : String.ofList (c :: rest) = String.singleton c ++ String.ofList rest := by
      rw [← String.toList_inj]
      simp
    rw [apart, String.utf8ByteSize_append, String.utf8ByteSize_singleton, ih, Text.byteSize_cons]

theorem utf8ByteSize_eq (text : String) : text.utf8ByteSize = Text.byteSize text.toList := by
  rw [← utf8ByteSize_ofList, String.ofList_toList]

theorem stop_eq (kind : Kind) (text : List Char) (position : Position) :
    (Token.new kind (String.ofList text) position.line position.column position.offset).stop =
      (position.advance text).offset := by
  rw [Position.offset_advance, ← utf8ByteSize_ofList]
  rfl

end Lifeline.Token
