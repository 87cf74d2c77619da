import Lifeline.Proofs.Token.Tiling

/-! Where a source can be cut.

Between any two lexemes the scanner starts anew, and it carries no more along than whether the line holds a
token already. So the lexemes behind such a place are those of the text behind it. Each token stands at the
start of its lexeme, which tells it from where it stands. -/

set_option autoImplicit false

namespace Lifeline

theorem Text.eq_of_byteSize {first second rest rest' : List Char}
    (same : first ++ rest = second ++ rest') (size : byteSize first = byteSize second) :
    first = second ∧ rest = rest' := by
  induction first generalizing second with
  | nil =>
    cases second with
    | nil => exact ⟨rfl, same⟩
    | cons d second =>
      have positive := d.utf8Size_pos
      simp at size
      omega
  | cons c first ih =>
    cases second with
    | nil =>
      have positive := c.utf8Size_pos
      simp at size
      omega
    | cons d second =>
      rw [List.cons_append, List.cons_append, List.cons.injEq] at same
      obtain ⟨rfl, same⟩ := same
      obtain ⟨rfl, rest⟩ := ih same (by simpa using size)
      exact ⟨rfl, rest⟩

namespace Token

variable {lineStarts : Bool} {position : Position} {found : List Lexeme} {token : Token}

@[simp] theorem spelled_nil : spelled [] = [] := rfl

@[simp] theorem spelled_append (first rest : List Lexeme) :
    spelled (first ++ rest) = spelled first ++ spelled rest := by
  simp [spelled]

/-- Lexemes that come last among those of a text are the lexemes of what they spell. -/
theorem exists_lexemes {text : List Char} {first rest : List Lexeme}
    (split : lexemes lineStarts text = first ++ rest) :
    text = spelled first ++ spelled rest ∧ ∃ starts, rest = lexemes starts (spelled rest) := by
  fun_induction lexemes lineStarts text generalizing first with
  | case1 =>
    obtain ⟨rfl, rfl⟩ := List.append_eq_nil_iff.1 split.symm
    exact ⟨rfl, lineStarts, by simp [lexemes]⟩
  | case2 lineStarts c more kind count same ih =>
    cases first with
    | nil =>
      rw [List.nil_append] at split
      have whole : lexemes lineStarts (c :: more) = rest := by
        rw [lexemes_cons, same]
        exact split
      have spells : c :: more = spelled rest := by rw [← whole, spelled_lexemes]
      exact ⟨spells, lineStarts, by rw [← spells, whole]⟩
    | cons lexeme first =>
      obtain ⟨rfl, later⟩ := List.cons.inj split
      obtain ⟨spells, starts⟩ := ih later
      refine ⟨?_, starts⟩
      rw [spelled_cons, List.append_assoc, ← spells]
      simp

theorem exists_cut {before after : List Token}
    (split : placed position found = before ++ token :: after) :
    ∃ first lexeme rest, found = first ++ lexeme :: rest ∧ placed position first = before ∧
      placedAt (position.advance (spelled first)) lexeme = some token ∧
      placed (position.advance (spelled first ++ lexeme.text)) rest = after := by
  induction found generalizing position before with
  | nil => cases before <;> cases split
  | cons lexeme found ih =>
    rcases lexeme with ⟨_ | kind, text⟩
    · -- A blank leaves no token behind.
      obtain ⟨first, lexeme, rest, rfl, same, token, later⟩ := ih split
      refine ⟨⟨none, text⟩ :: first, lexeme, rest, rfl, same, ?_, ?_⟩
      · rw [spelled_cons, Position.advance_append]
        exact token
      · rw [spelled_cons, List.append_assoc, Position.advance_append]
        exact later
    · cases before with
      | nil =>
        obtain ⟨rfl, rfl⟩ := List.cons.inj split
        exact ⟨[], ⟨some kind, text⟩, found, rfl, rfl, rfl, rfl⟩
      | cons other before =>
        rw [placed_token, List.cons_append, List.cons.injEq] at split
        obtain ⟨rfl, split⟩ := split
        obtain ⟨first, lexeme, rest, rfl, same, token, later⟩ := ih split
        refine ⟨⟨some kind, text⟩ :: first, lexeme, rest, rfl, ?_, ?_, ?_⟩
        · rw [placed_token, same]
        · rw [spelled_cons, Position.advance_append]
          exact token
        · rw [spelled_cons, List.append_assoc, Position.advance_append]
          exact later

theorem eq_of_placedAt {lexeme : Lexeme} (placed : placedAt position lexeme = some token) :
    lexeme = ⟨some token.kind, token.text.toList⟩ ∧ token.offset = position.offset ∧
      token.stop = (position.advance lexeme.text).offset := by
  obtain ⟨_ | kind, text⟩ := lexeme
  · cases placed
  · cases placed
    exact ⟨by rw [kind_new, text_new, String.toList_ofList], rfl, stop_eq _ _ _⟩

theorem exists_cut_of_mem (member : token ∈ placed position found) :
    ∃ first rest, found = first ++ ⟨some token.kind, token.text.toList⟩ :: rest ∧
      token.offset = position.offset + Text.byteSize (spelled first) := by
  obtain ⟨before, after, split⟩ := List.append_of_mem member
  obtain ⟨first, lexeme, rest, rfl, -, placed, -⟩ := exists_cut split
  obtain ⟨rfl, offset, -⟩ := eq_of_placedAt placed
  exact ⟨first, rest, rfl, by rw [offset, Position.offset_advance]⟩

theorem stop_le_of_mem (member : token ∈ placed position found) :
    token.stop ≤ position.offset + Text.byteSize (spelled found) := by
  obtain ⟨before, after, split⟩ := List.append_of_mem member
  obtain ⟨first, lexeme, rest, rfl, -, placed, -⟩ := exists_cut split
  rw [(eq_of_placedAt placed).2.2, spelled_append, spelled_cons]
  simp only [Position.offset_advance, Text.byteSize_append]
  omega

/-- Tokens whose place behind a text is known are cut off from the tokens of the source with that text. -/
theorem tokens_of_cut {source : String} {found rest : List Lexeme}
    (split : lexemes true source.toList = found ++ rest) :
    ∃ stop, stop.kind = .eof ∧ stop.offset = Text.byteSize source.toList ∧
      (tokenize source).tokens = placed .start found ++
        (placed (Position.start.advance (spelled found)) rest ++ [stop]) := by
  have tokens := tokens_tokenize source
  rw [split, placed_append, List.append_assoc] at tokens
  refine ⟨_, ?_, ?_, tokens⟩
  · rfl
  · simp [endOfInput, Position.offset_advance, Position.start]

def spelling (token : Token) : Kind × List Char := (token.kind, token.text.toList)

theorem map_spelling_placed (position : Position) (found : List Lexeme) :
    (placed position found).map spelling =
      found.filterMap fun lexeme => lexeme.kind.map (·, lexeme.text) := by
  induction found generalizing position with
  | nil => rfl
  | cons lexeme rest ih =>
    rcases lexeme with ⟨_ | kind, text⟩
    · exact ih _
    · simp [spelling, ih]

end Token

end Lifeline
