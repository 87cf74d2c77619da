import Lifeline.Proofs.Token.Placed
import Lifeline.Proofs.Token.Lexing

/-! The tokens of a source tile it.

Main statement: `tokenize` loses nothing. Its tokens are pieces of the source in order, what lies
between them is blank, the end mark stands at the end, and the one thing that can be wrong is a last
token that opens a string. -/

set_option autoImplicit false

namespace Lifeline.Token

/-- Tokens that lie in a source one after the other, with nothing but blanks beside them. -/
structure Tiles (source : List Char) (tokens : List Token) : Prop where
  nonempty : ∀ token ∈ tokens, token.text ≠ ""
  ordered : tokens.Pairwise fun first second => first.stop ≤ second.offset
  slice : ∀ token ∈ tokens, ∃ before after,
    source = before ++ token.text.toList ++ after ∧ Text.byteSize before = token.offset
  length : ∀ token ∈ tokens, token.length = token.text.utf8ByteSize
  blank : ∀ before c after, source = before ++ c :: after →
    (∀ token ∈ tokens,
      ¬(token.offset ≤ Text.byteSize before ∧ Text.byteSize before < token.stop)) →
    Lexeme.isSpace c = true

theorem offset_le_of_mem {position : Position} {lexemes : List Lexeme} {token : Token}
    (member : token ∈ placed position lexemes) : position.offset ≤ token.offset := by
  induction lexemes generalizing position with
  | nil => cases member
  | cons lexeme rest ih =>
    rcases lexeme with ⟨_ | kind, text⟩
    · have later := ih member
      rw [Position.offset_advance] at later
      omega
    · rcases List.mem_cons.1 member with rfl | member
      · exact Nat.le_refl _
      · have later := ih member
        rw [Position.offset_advance] at later
        omega

theorem pairwise_placed (position : Position) (lexemes : List Lexeme) :
    (placed position lexemes).Pairwise fun first second => first.stop ≤ second.offset := by
  induction lexemes generalizing position with
  | nil => exact .nil
  | cons lexeme rest ih =>
    rcases lexeme with ⟨_ | kind, text⟩
    · exact ih _
    · refine List.pairwise_cons.2 ⟨fun token member => ?_, ih _⟩
      rw [stop_eq]
      exact offset_le_of_mem member

theorem slice_of_mem {position : Position} {lexemes : List Lexeme} {token : Token}
    (member : token ∈ placed position lexemes) :
    ∃ before after, spelled lexemes = before ++ token.text.toList ++ after ∧
      position.offset + Text.byteSize before = token.offset := by
  induction lexemes generalizing position with
  | nil => cases member
  | cons lexeme rest ih =>
    have later (member : token ∈ placed (position.advance lexeme.text) rest) :
        ∃ before after, spelled (lexeme :: rest) = before ++ token.text.toList ++ after ∧
          position.offset + Text.byteSize before = token.offset := by
      obtain ⟨before, after, same, size⟩ := ih member
      refine ⟨lexeme.text ++ before, after, by rw [spelled_cons, same]; simp, ?_⟩
      rw [Position.offset_advance] at size
      rw [Text.byteSize_append, ← Nat.add_assoc, size]
    rcases lexeme with ⟨_ | kind, text⟩
    · exact later member
    · rcases List.mem_cons.1 member with rfl | member
      · exact ⟨[], spelled rest, by simp, rfl⟩
      · exact later member

theorem isSpace_of_uncovered (position : Position) {lexemes : List Lexeme}
    (blank : ∀ lexeme ∈ lexemes, lexeme.kind = none → ∀ c ∈ lexeme.text, Lexeme.isSpace c = true)
    {before after : List Char} {c : Char} (same : spelled lexemes = before ++ c :: after)
    (free : ∀ token ∈ placed position lexemes,
      ¬(token.offset ≤ position.offset + Text.byteSize before ∧
        position.offset + Text.byteSize before < token.stop)) :
    Lexeme.isSpace c = true := by
  induction lexemes generalizing position before with
  | nil => cases before <;> cases same
  | cons lexeme rest ih =>
    have beyond (more : List Char) (cut : before = lexeme.text ++ more)
        (later : spelled rest = more ++ c :: after) : Lexeme.isSpace c = true := by
      refine ih (position.advance lexeme.text)
        (fun other member => blank other (List.mem_cons_of_mem lexeme member)) later
        fun token member => ?_
      rw [Position.offset_advance, Nat.add_assoc, ← Text.byteSize_append, ← cut]
      exact free token (List.mem_append_right _ member)
    rw [spelled_cons] at same
    -- The character lies beyond the first lexeme, right behind it, or within it.
    rcases List.append_eq_append_iff.1 same with ⟨more, cut, later⟩ | ⟨_ | ⟨d, more⟩, cut, later⟩
    · exact beyond more cut later
    · exact beyond [] (by simpa using cut.symm) later.symm
    · cases later
      rcases lexeme with ⟨_ | kind, text⟩
      · exact blank _ List.mem_cons_self rfl c (by simp [show text = _ from cut])
      · -- The token of this lexeme covers the character.
        refine absurd ?_ (free _ List.mem_cons_self)
        have size : 0 < c.utf8Size := c.utf8Size_pos
        rw [stop_eq, Position.offset_advance, show text = _ from cut, Text.byteSize_append,
          Text.byteSize_cons, offset_new]
        omega

theorem isSpace_of_blank {lineStarts : Bool} {text : List Char} :
    ∀ lexeme ∈ lexemes lineStarts text, lexeme.kind = none →
      ∀ c ∈ lexeme.text, Lexeme.isSpace c = true := by
  intro lexeme member blank d inside
  obtain ⟨starts, c, rest, count, measured, same⟩ := measured_of_mem member
  rw [blank] at measured
  cases measured
  rename_i space
  rw [same, List.take_zero, List.mem_singleton] at inside
  exact inside ▸ space

theorem text_ne_of_mem {lineStarts : Bool} {text : List Char} {position : Position} {token : Token}
    (member : token ∈ placed position (lexemes lineStarts text)) :
    token.text ≠ "" ∧ token.kind ≠ .eof := by
  obtain ⟨lexeme, inside, kind, text⟩ := mem_placed member
  obtain ⟨starts, c, rest, count, measured, same⟩ := measured_of_mem inside
  refine ⟨fun empty => ?_, fun eof => ?_⟩
  · rw [same, empty] at text
    cases text
  · rw [kind, eof] at measured
    cases measured.formed (by decide)

theorem tiles_placed (text : List Char) :
    Tiles text (placed .start (lexemes true text)) where
  nonempty token member := (text_ne_of_mem member).1
  ordered := pairwise_placed _ _
  slice token member := by
    have found := slice_of_mem member
    rw [spelled_lexemes] at found
    simpa [Position.start] using found
  length token member := length_of_mem member
  blank before c after same free := by
    have whole : spelled (lexemes true text) = before ++ c :: after := by
      rw [spelled_lexemes, same]
    refine isSpace_of_uncovered .start isSpace_of_blank whole ?_
    simpa [Position.start] using free

/-! ## Open strings -/

def OpensString (token : Token) : Prop :=
  token.kind = .unknown ∧ token.text.toList.head? = some '"'

instance (token : Token) : Decidable token.OpensString := inferInstanceAs (Decidable (_ ∧ _))

def openString (token : Token) : Diagnostic :=
  ⟨.lexical, "Unterminated string", token.line, token.column, token.offset, none⟩

def unterminated? (token : Token) : Option Diagnostic :=
  if token.OpensString then some token.openString else none

/-- What the scanner reports on its way is what the finished tokens show. -/
theorem reports_eq (lineStarts : Bool) (position : Position) (text : List Char) :
    reports lineStarts position text =
      (placed position (lexemes lineStarts text)).filterMap unterminated? := by
  fun_induction reports lineStarts position text with
  | case1 => simp [lexemes]
  | case2 lineStarts position first rest kind extra same ih =>
    have found : openString? position first rest =
        (placedAt position ⟨kind, first :: rest.take extra⟩).bind unterminated? := by
      by_cases quote : first = '"'
      · subst quote
        obtain ⟨rfl, rfl⟩ : some (Lexeme.stringBody rest).1 = kind ∧
            (Lexeme.stringBody rest).2 = extra := Prod.mk.inj same
        simp [openString?, placedAt, unterminated?, OpensString, openString, Token.new]
      · cases kind <;> simp [openString?, placedAt, unterminated?, OpensString, Token.new, quote]
    rw [lexemes_cons, same, placed, List.filterMap_append, ← ih, found]
    cases placedAt position ⟨kind, first :: rest.take extra⟩ with
    | none => rfl
    | some token => cases report : token.unterminated? <;> simp [report]

theorem drop_eq_nil_of_opens {lineStarts : Bool} {c : Char} {rest : List Char} {count : Nat}
    (measured : Lexeme.Measured lineStarts c rest (some .unknown) count) (quote : c = '"') :
    rest.drop count = [] := by
  subst quote
  -- As a variable, the kind can be told apart from those that are looked up in a table.
  generalize unknown : some Kind.unknown = kind at measured
  cases measured with
  | openString => simp
  | lone _ _ noQuote => exact absurd rfl noQuote
  | mark listed =>
    have first : '"' ∈ Lexeme.marks.map Prod.fst := List.mem_map_of_mem listed
    exact absurd first (by decide)
  | space space => exact absurd space (by decide)
  | word start => exact absurd start (by decide)
  | _ => cases unknown

theorem openString_last (position : Position) (lineStarts : Bool) (text : List Char) :
    (placed position (lexemes lineStarts text)).filterMap unterminated? =
        ((placed position (lexemes lineStarts text)).getLast?.bind unterminated?).toList ∧
      ∀ last ∈ (placed position (lexemes lineStarts text)).getLast?, last.OpensString →
        last.stop = position.offset + Text.byteSize text := by
  fun_induction lexemes lineStarts text generalizing position with
  | case1 => exact ⟨rfl, fun last found => by cases found⟩
  | case2 lineStarts c rest kind count same ih =>
    have size : Text.byteSize (c :: rest) =
        Text.byteSize (c :: rest.take count) + Text.byteSize (rest.drop count) := by
      rw [← Text.byteSize_append, List.cons_append, List.take_append_drop]
    have measured := Lexeme.measured_measure lineStarts c rest
    rw [same] at measured
    obtain ⟨reports, reaches⟩ := ih (position.advance (c :: rest.take count))
    rw [Position.offset_advance, Nat.add_assoc, ← size] at reaches
    cases kind with
    | none => exact ⟨reports, reaches⟩
    | some kind =>
      rw [placed_token]
      generalize first_eq : Token.new kind (String.ofList (c :: rest.take count)) position.line
        position.column position.offset = first
      by_cases opens : first.OpensString
      · -- An open string has taken up all that is left, so that no token follows.
        have quote : c = '"' := by
          have head := opens.2
          rw [← first_eq, text_new, String.toList_ofList] at head
          exact Option.some.inj head
        have unknown : kind = .unknown := by
          rw [← opens.1, ← first_eq, kind_new]
        subst unknown
        have none : rest.drop count = [] := drop_eq_nil_of_opens measured quote
        rw [none] at size ⊢
        refine ⟨?_, ?_⟩
        · simp [lexemes, unterminated?, opens]
        · intro last found _
          have whole : first = last := by simpa [lexemes] using found
          rw [← whole, ← first_eq, stop_eq, Position.offset_advance, size]
          rfl
      · have silent : unterminated? first = none := by rw [unterminated?, if_neg opens]
        rw [List.filterMap_cons, silent]
        cases later : placed (position.advance (c :: rest.take count))
            (lexemes (Lexeme.linesUp lineStarts (some kind)) (rest.drop count)) with
        | nil =>
          refine ⟨by simp [silent], ?_⟩
          intro last found opened
          have whole : first = last := by simpa using found
          exact absurd (whole ▸ opened) opens
        | cons next more =>
          rw [later] at reports reaches
          exact ⟨reports, reaches⟩

theorem tokens_tokenize (source : String) :
    (tokenize source).tokens = placed .start (lexemes true source.toList) ++
      [endOfInput (Position.start.advance source.toList).line
        (Position.start.advance source.toList).column
        (Position.start.advance source.toList).offset] := by
  have tokens := locate_eq_placed .start (lexemes true source.toList)
  rwa [spelled_lexemes] at tokens

theorem issues_tokenize (source : String) :
    (tokenize source).issues =
      ((placed .start (lexemes true source.toList)).getLast?.bind unterminated?).toList := by
  rw [← (openString_last .start true source.toList).1]
  exact reports_eq _ _ _

/-- Nothing of a source is lost. Its tokens are pieces of it in order, with blanks between them, and
an end mark after its last byte; one of them is reported, the last one if that opens a string, and
then it runs to the end of the source. -/
theorem tokenize_tiles (source : String) :
    ∃ inner stop, (tokenize source).tokens = inner ++ [stop] ∧
      (stop.kind = .eof ∧ stop.text = "" ∧ stop.offset = source.utf8ByteSize ∧ stop.length = 0) ∧
      (∀ token ∈ inner, token.kind ≠ .eof) ∧
      Tiles source.toList inner ∧
      (tokenize source).issues.length ≤ 1 ∧
      ((tokenize source).issues ≠ [] ↔ ∃ last ∈ inner.getLast?, last.OpensString) ∧
      ∀ issue ∈ (tokenize source).issues, ∃ last ∈ inner.getLast?,
        last.stop = source.utf8ByteSize ∧ issue = last.openString := by
  have tokens := tokens_tokenize source
  have issues := issues_tokenize source
  obtain ⟨-, reaches⟩ := openString_last .start true source.toList
  rw [show Position.start.offset = 0 from rfl, Nat.zero_add, ← utf8ByteSize_eq] at reaches
  have kinds : ∀ token ∈ placed .start (lexemes true source.toList), token.kind ≠ .eof :=
    fun token member => (text_ne_of_mem member).2
  have tiles := tiles_placed source.toList
  generalize placed .start (lexemes true source.toList) = inner at *
  refine ⟨inner, _, tokens, ⟨rfl, rfl, ?_, rfl⟩, kinds, tiles, ?_⟩
  · rw [utf8ByteSize_eq]
    simp [endOfInput, Position.offset_advance, Position.start]
  -- Whether anything is reported depends on the last token alone.
  rw [issues]
  cases last : inner.getLast? with
  | none => simp
  | some token =>
    rw [Option.bind_some, unterminated?]
    by_cases opens : token.OpensString
    · have stops := reaches token last opens
      simp [opens, stops]
    · simp [opens]

end Lifeline.Token
