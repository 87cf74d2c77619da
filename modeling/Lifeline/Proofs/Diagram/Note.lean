import Lifeline.Proofs.Diagram.Leaf

/-! Notes that are read back from their text, with the names that they stand beside. -/

set_option autoImplicit false

namespace Lifeline

open Token (Lexed Inert IsIdentifier Kind kinds)

variable {stream : Stream} {rest : List Char}

namespace Leaf

/-- Texts that end a list of names: what follows is neither a further name nor a comma. -/
structure EndsNames (tail : List Char) : Prop where
  head : Token.EndsWord tail
  mark : ∀ tokens, Lexed false tail tokens → ∃ token more, tokens = token :: more ∧
    (token.kind = .newline ∨ token.kind = .colon)

theorem endsNames_lineFeed (rest : List Char) : EndsNames ('\n' :: rest) where
  head := Token.endsWord_lineFeed rest
  mark tokens lexed := by
    obtain ⟨token, more, same, kind, -⟩ := lexed.lineFeed
    exact ⟨token, more, same, .inl kind⟩

theorem endsNames_colon (rest : List Char) : EndsNames (' ' :: ':' :: rest) where
  head := Token.endsWord_space _
  mark tokens lexed := by
    obtain ⟨token, more, same, kind, -⟩ := lexed.gap.mark .colon (by decide)
    exact ⟨token, more, same, .inr kind⟩

def furtherText (names : List String) : List Char :=
  names.flatMap fun name => [',', ' '] ++ name.toList

theorem EndsNames.further {tail : List Char} (ends : EndsNames tail) (names : List String) :
    Token.EndsWord (furtherText names ++ tail) := by
  cases names with
  | nil => exact ends.head
  | cons next more => exact Token.endsWord_cons (by decide) _

theorem furtherNames_lexed {names : List String}
    (identifiers : ∀ name ∈ names, IsIdentifier name) {tail : List Char} (ends : EndsNames tail)
    (lexed : Lexed false (furtherText names ++ tail) stream.ahead) :
    (furtherNames stream).1.map Token.value = names ∧
      Lexed false tail (furtherNames stream).2.ahead := by
  -- Each further name takes up two tokens, a comma and the name.
  induction names generalizing stream with
  | nil =>
    obtain ⟨token, more, ahead, kind⟩ := ends.mark _ lexed
    have none : furtherNames stream = ([], stream) := by
      refine furtherNames_eq_nil fun comma name rest ahead' further => ?_
      cases ahead.symm.trans ahead'
      rw [further.1] at kind
      rcases kind with kind | kind <;> cases kind
    rw [none]
    exact ⟨rfl, lexed⟩
  | cons name names ih =>
    have apart : furtherText (name :: names) ++ tail =
        ',' :: ' ' :: (name.toList ++ (furtherText names ++ tail)) := by
      simp [furtherText]
    have stops := ends.further names
    rw [apart] at lexed
    obtain ⟨comma, more, ahead, comma_kind, later⟩ := lexed.mark .comma (by decide)
    obtain ⟨token, more', rfl, kind, -, value, later'⟩ :=
      later.gap.identifier (identifiers name List.mem_cons_self) stops
    have left : (stream.drop 2).ahead = more' := by
      rw [Stream.ahead_drop, ahead]
      rfl
    rw [← left] at later'
    obtain ⟨values, behind⟩ :=
      ih (fun other member => identifiers other (List.mem_cons_of_mem name member)) later'
    rw [furtherNames_of_further ahead ⟨comma_kind, by rw [kind]; rfl⟩, List.map_cons, value, values]
    exact ⟨rfl, behind⟩

theorem targets_lexed {name : String} {names : List String}
    (identifiers : ∀ other ∈ name :: names, IsIdentifier other) {tail : List Char}
    (ends : EndsNames tail)
    (lexed : Lexed false ((", ".intercalate (name :: names)).toList ++ tail) stream.ahead) :
    ∃ left, targets stream = (some (", ".intercalate (name :: names)), left) ∧
      Lexed false tail left.ahead := by
  have apart : (", ".intercalate (name :: names)).toList ++ tail =
      name.toList ++ (furtherText names ++ tail) := by
    rw [String.toList_intercalate, List.map_cons, Text.intercalate_cons_eq_flatMap,
      List.flatMap_map, List.append_assoc]
    rfl
  have stops := ends.further names
  rw [apart] at lexed
  obtain ⟨token, name_eq, value, later⟩ :=
    Stream.name?_lexed (identifiers name List.mem_cons_self) stops lexed
  obtain ⟨values, left⟩ := furtherNames_lexed
    (fun other member => identifiers other (List.mem_cons_of_mem name member)) ends later
  refine ⟨_, ?_, left⟩
  rw [targets, name_eq]
  dsimp only
  rw [List.map_cons, value, values]

theorem targets_of_endsNames {tail : List Char} (ends : EndsNames tail)
    (lexed : Lexed false tail stream.ahead) : targets stream = (none, stream) := by
  obtain ⟨token, more, ahead, kind⟩ := ends.mark _ lexed
  have noName : token.kind.isName = false := by rcases kind with kind | kind <;> rw [kind] <;> rfl
  rw [targets, Stream.name?_of_not_isName ahead noName]

theorem atWord_of_endsNames {tail : List Char} (ends : EndsNames tail)
    (lexed : Lexed false tail stream.ahead) (word : String) : stream.atWord word = false := by
  obtain ⟨token, more, ahead, kind⟩ := ends.mark _ lexed
  rw [Stream.atWord_of_ahead ahead]
  rcases kind with kind | kind <;> rw [kind] <;> rfl

theorem placement_beside_lexed (side : NoteSide) (beside : side ≠ .over) {tail : List Char}
    (ends : EndsNames tail) (lexed : Lexed false (' ' :: (side.word.toList ++ tail)) stream.ahead) :
    ∃ left, placement stream = (some (side, none), left) ∧ Lexed false tail left.ahead := by
  have identifier : IsIdentifier side.word := by cases side <;> decide
  obtain ⟨atWord, later⟩ := Stream.atWord_lexed _ identifier ends.head lexed.gap
  refine ⟨stream.drop 1, ?_, later⟩
  have noOf := atWord_of_endsNames ends later "of"
  have none := targets_of_endsNames ends later
  rw [placement, atWord, atWord]
  cases side with
  | left => simp [noOf, none, show Text.asciiLower NoteSide.left.word = "left" from rfl]
  | right => simp [noOf, none, show Text.asciiLower NoteSide.right.word = "right" from rfl]
  | «over» => exact absurd rfl beside

theorem placement_of_lexed (side : NoteSide) (beside : side ≠ .over) {name : String}
    {names : List String} (identifiers : ∀ other ∈ name :: names, IsIdentifier other)
    {tail : List Char} (ends : EndsNames tail)
    (lexed : Lexed false (' ' :: (side.word.toList ++ ' ' :: 'o' :: 'f' :: ' ' ::
      ((", ".intercalate (name :: names)).toList ++ tail))) stream.ahead) :
    ∃ left, placement stream = (some (side, some (", ".intercalate (name :: names))), left) ∧
      Lexed false tail left.ahead := by
  have identifier : IsIdentifier side.word := by cases side <;> decide
  obtain ⟨atWord, later⟩ :=
    Stream.atWord_lexed _ identifier (Token.endsWord_space _) lexed.gap
  obtain ⟨atOf, later'⟩ :=
    Stream.atWord_lexed "of" (by decide) (Token.endsWord_space _) later.gap
  obtain ⟨left, targets_eq, last⟩ := targets_lexed identifiers ends later'.gap
  refine ⟨left, ?_, last⟩
  have isOf : (stream.drop 1).atWord "of" = true := by rw [atOf]; decide
  rw [placement, atWord, atWord]
  cases side with
  | left => simp [isOf, targets_eq, show Text.asciiLower NoteSide.left.word = "left" from rfl]
  | right => simp [isOf, targets_eq, show Text.asciiLower NoteSide.right.word = "right" from rfl]
  | «over» => exact absurd rfl beside

theorem placement_over_lexed {name : String} {names : List String}
    (identifiers : ∀ other ∈ name :: names, IsIdentifier other) {tail : List Char}
    (ends : EndsNames tail)
    (lexed : Lexed false (' ' :: 'o' :: 'v' :: 'e' :: 'r' :: ' ' ::
      ((", ".intercalate (name :: names)).toList ++ tail)) stream.ahead) :
    ∃ left, placement stream = (some (.over, some (", ".intercalate (name :: names))), left) ∧
      Lexed false tail left.ahead := by
  obtain ⟨atWord, later⟩ :=
    Stream.atWord_lexed "over" (by decide) (Token.endsWord_space _) lexed.gap
  obtain ⟨left, targets_eq, last⟩ := targets_lexed identifiers ends later.gap
  refine ⟨left, ?_, last⟩
  rw [placement, atWord, atWord, atWord]
  simp [targets_eq, show Text.asciiLower "over" = "over" from rfl]

/-! ## Notes on several lines -/

theorem noteBody_separator {token : Token} {more : List Token}
    (ahead : stream.ahead = token :: more) (separator : token.kind.isSeparator = true) :
    noteBody stream = noteBody (stream.drop 1) := by
  rw [noteBody.eq_def stream, noteBody.eq_def (stream.drop 1)]
  rw [Stream.skipSeparators_cons ahead separator]

theorem noteBody_end {token next : Token} {more : List Token}
    (ahead : stream.ahead = token :: next :: more) (endMark : token.kind = .endMark)
    (note : next.kind = .note) : noteBody stream = (some [], stream.drop 2) := by
  have stays : stream.skipSeparators = stream := Stream.skip_eq_self (by
    rw [ahead]
    rintro first ⟨⟩
    rw [endMark]
    rfl)
  have closes : atEndNote stream.skipSeparators = true := by
    rw [stays, atEndNote, Stream.atKind_of_ahead ahead, Stream.peekAt_one ahead, endMark,
      List.headD_cons, note]
    rfl
  rw [noteBody_of_atEndNote ?_ closes, stays]
  rw [stays, Stream.atEnd_of_ahead ahead, Stream.atKind_of_ahead ahead, endMark]
  decide

/-- A line ends no note unless its first two tokens say so. -/
theorem noEndNote {token : Token} {others more : List Token}
    (ahead : stream.ahead = token :: others ++ more)
    (ends : ∀ last ∈ more.head?, Stream.endsLine last.kind = true)
    (body : ¬[.endMark, .note] <+: (token :: others).map Token.kind) :
    atEndNote stream = false := by
  rw [List.cons_append] at ahead
  rw [atEndNote, Stream.atKind_of_ahead ahead, Stream.peekAt_one ahead, Bool.and_eq_false_iff]
  by_cases endMark : token.kind = .endMark
  · refine .inr (beq_eq_false_iff_ne.2 fun note => ?_)
    cases others with
    | nil =>
      cases more with
      | nil => cases stream.kind_eof.symm.trans note
      | cons last more =>
        have stop := ends last rfl
        rw [show last.kind = .note from note] at stop
        cases stop
    | cons next others =>
      apply body
      simp [endMark, show next.kind = .note from note]
  · exact .inl (beq_eq_false_iff_ne.2 endMark)

theorem noteBody_line {token : Token} {others more : List Token}
    (ahead : stream.ahead = token :: others ++ more)
    (inside : ∀ kind ∈ (token :: others).map Token.kind, Stream.endsLine kind = false)
    (ends : ∀ last ∈ more.head?, Stream.endsLine last.kind = true)
    (body : ¬[.endMark, .note] <+: (token :: others).map Token.kind) :
    noteBody stream =
        ((noteBody stream.restOfLine.2).1.map (Stream.join (token :: others) :: ·),
          (noteBody stream.restOfLine.2).2) ∧
      stream.restOfLine.2.ahead = more := by
  have start := inside token.kind List.mem_cons_self
  obtain ⟨noSeparator, noEnd⟩ : token.kind.isSeparator = false ∧ (token.kind == .endUml) = false := by
    simp only [Stream.endsLine, Bool.or_eq_false_iff] at start
    exact ⟨start.1.1, start.2⟩
  have stays : stream.skipSeparators = stream := Stream.skip_eq_self (by
    rw [ahead]
    rintro first ⟨⟩
    exact noSeparator)
  obtain ⟨text, left⟩ := Stream.restOfLine_eq ahead inside ends
  have inside' : ¬(stream.skipSeparators.atEnd || stream.skipSeparators.atKind .endUml) = true := by
    rw [stays, Stream.atEnd_of_ahead ahead, Stream.atKind_of_ahead ahead, noEnd]
    decide
  have opens : ¬atEndNote stream.skipSeparators = true := by
    rw [stays, noEndNote ahead ends body]
    decide
  refine ⟨?_, left⟩
  rw [noteBody_of_line inside' opens, stays, text]

/-- Whether a text can be a line of a note, before the line that ends it. -/
structure BodyLine (text : List Char) : Prop extends Harmless text where
  apostrophe : text.head? ≠ some '\''
  noEnd : ¬[.endMark, .note] <+: kinds text

/-- An inert text lexes alike everywhere on a line, unless an apostrophe starts it. -/
theorem lexed_of_head {text : List Char} (inert : Inert text) (apostrophe : text.head? ≠ some '\'')
    {lineStarts : Bool} {tokens : List Token} (nonempty : text ≠ [])
    (lexed : Lexed lineStarts (text ++ rest) tokens) : Lexed false (text ++ rest) tokens := by
  obtain ⟨position, rfl⟩ := lexed
  obtain ⟨c, more, rfl⟩ := List.exists_cons_of_ne_nil nonempty
  have noApostrophe : c ≠ '\'' := fun same => apostrophe (same ▸ rfl)
  have noSpace : Token.Lexeme.isSpace c = false := by
    rw [Bool.eq_false_iff]
    intro space
    have solid := Text.head?_collapse (c :: more) c (by rw [inert.collapsed]; rfl)
    rw [Token.isBlank_of_isSpace space] at solid
    cases solid
  rw [List.cons_append, Token.lexemes_of_head noApostrophe noSpace]
  exact ⟨position, rfl⟩

theorem noteBody_lexed (indent last : Nat) {lines : List (List Char)}
    (texts : ∀ line ∈ lines, BodyLine line)
    (lexed : Lexed true
      (lines.flatMap (fun line => List.replicate indent ' ' ++ (line ++ ['\n'])) ++
        (List.replicate last ' ' ++ ("end note".toList ++ '\n' :: rest))) stream.ahead) :
    ∃ left, noteBody stream = (some ((lines.filter (! ·.isEmpty)).map String.ofList), left) ∧
      Lexed false ('\n' :: rest) left.ahead := by
  -- The induction is on the lines that are left. Empty ones give separators, which are passed over,
  -- and any other one gives a line of its own, since it neither starts a comment nor ends the note.
  induction lines generalizing stream with
  | nil =>
    have words : Lexed true ("end".toList ++ ' ' :: ("note".toList ++ '\n' :: rest))
        stream.ahead := lexed.indent
    obtain ⟨token, more, ahead, endMark, -, later⟩ :=
      words.word _ (by decide) (Token.endsWord_space _)
    obtain ⟨next, more', rfl, note, -, later'⟩ :=
      later.gap.word _ (by decide) (Token.endsWord_lineFeed _)
    refine ⟨stream.drop 2, noteBody_end ahead endMark note, ?_⟩
    rw [Stream.ahead_drop, ahead]
    exact later'
  | cons line lines ih =>
    have bodyLine := texts line List.mem_cons_self
    have others : ∀ other ∈ lines, BodyLine other := fun other member =>
      texts other (List.mem_cons_of_mem line member)
    simp only [List.flatMap_cons, List.append_assoc, List.singleton_append] at lexed
    have here := lexed.indent
    by_cases empty : line = []
    · subst empty
      obtain ⟨newline, more, ahead, kind, later⟩ := here.lineFeed
      rw [← Stream.ahead_drop_one ahead] at later
      rw [noteBody_separator ahead (by rw [kind]; rfl)]
      exact ih others later
    · have inside := lexed_of_head bodyLine.toInert bodyLine.apostrophe empty here
      obtain ⟨first, more, ahead, join, same, later⟩ :=
        inside.inert bodyLine.toInert (stops_lineFeed _)
      obtain ⟨newline, more', cut, kind, later'⟩ := later.lineFeed
      cases first with
      | nil => exact absurd (String.ofList_injective (join.symm.trans rfl)) empty
      | cons token further =>
        have ends : ∀ last ∈ more.head?, Stream.endsLine last.kind = true := by
          rw [cut]
          rintro last ⟨⟩
          rw [kind]
          rfl
        obtain ⟨first, behind⟩ :=
          noteBody_line ahead (same ▸ bodyLine.endsLine) ends (same ▸ bodyLine.noEnd)
        have ahead' := behind.trans cut
        rw [← Stream.ahead_drop_one ahead'] at later'
        obtain ⟨left, body, last⟩ := ih others later'
        refine ⟨left, ?_, last⟩
        rw [first, noteBody_separator ahead' (by rw [kind]; rfl), body, join]
        simp [empty]

theorem note_text_lexed (keyword : Token) {side : NoteSide} {target : Option String}
    {left : Stream} (placed : placement stream = (some (side, target), left)) {text : List Char}
    (harmless : Harmless text)
    (lexed : Lexed false (' ' :: ':' :: ' ' :: (text ++ '\n' :: rest)) left.ahead) :
    ∃ span last,
      note keyword stream = ⟨some (.note (String.ofList text) target side span), none, last⟩ ∧
      Lexed false ('\n' :: rest) last.ahead := by
  obtain ⟨colon, more, ahead, kind, later⟩ := lexed.gap.mark .colon (by decide)
  have atColon : left.atKind .colon = true := by rw [Stream.atKind_of_ahead ahead, kind]; rfl
  rw [← Stream.ahead_drop_one ahead] at later
  obtain ⟨last, joined, ends⟩ := Stream.restOfLine_lexed harmless later.gap
  refine ⟨spanFrom keyword last, last, ?_, ends⟩
  rw [note, placed]
  dsimp only
  rw [if_pos atColon, joined]

theorem note_lines_lexed (keyword : Token) {side : NoteSide} {target : Option String}
    {left : Stream} (placed : placement stream = (some (side, target), left)) (indent depth : Nat)
    {lines : List (List Char)} (texts : ∀ line ∈ lines, BodyLine line)
    (lexed : Lexed false ('\n' ::
      (lines.flatMap (fun line => List.replicate indent ' ' ++ (line ++ ['\n'])) ++
        (List.replicate depth ' ' ++ ("end note".toList ++ '\n' :: rest)))) left.ahead) :
    ∃ span last,
      note keyword stream =
        ⟨some (.note ("\n".intercalate ((lines.filter (! ·.isEmpty)).map String.ofList)) target
          side span), none, last⟩ ∧
      Lexed false ('\n' :: rest) last.ahead := by
  obtain ⟨newline, more, ahead, kind, later⟩ := lexed.lineFeed
  have noColon : left.atKind .colon = false := by rw [Stream.atKind_of_ahead ahead, kind]; rfl
  have endsLine : Stream.endsLine left.peek.kind = true := by
    rw [Stream.peek_of_ahead ahead, kind]
    rfl
  rw [← Stream.ahead_drop_one ahead] at later
  obtain ⟨last, body, ends⟩ := noteBody_lexed indent depth texts later
  refine ⟨spanFrom keyword last, last, ?_, ends⟩
  rw [note, placed]
  dsimp only
  rw [noColon, if_neg Bool.false_ne_true, if_pos endsLine,
    noteBody_separator ahead (by rw [kind]; rfl), body]

end Leaf

end Lifeline
