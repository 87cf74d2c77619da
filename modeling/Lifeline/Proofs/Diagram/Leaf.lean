import Lifeline.Diagram.Leaf
import Lifeline.Proofs.Diagram.Stream
import Lifeline.Proofs.Token.Lexed

/-! Statements that are read back from their text.

Each reading is given the tokens of a text that writes the statement, up to its line feed. It gives
the statement, reports nothing, and leaves the line feed and what follows. -/

set_option autoImplicit false

namespace Lifeline

open Token (Lexed Inert IsIdentifier Kind kinds)

variable {stream : Stream} {rest : List Char}

/-- Whether a free text can stand at the end of a line. -/
structure Harmless (text : List Char) : Prop extends Inert text where
  endUml : .endUml ∉ kinds text

/-- Whether a free text can stand behind the keyword of a block. -/
structure Labels (text : List Char) : Prop extends Harmless text where
  boundary : ∀ kind ∈ kinds text, kind.isBlockBoundary = false
  startUml : .startUml ∉ kinds text

theorem labels_nil : Labels [] where
  plain := ⟨by simp, by simp, by simp⟩
  collapsed := rfl
  endUml := by simp
  boundary := by simp
  startUml := by simp

theorem stops_lineFeed (rest : List Char) : Token.Lexeme.Stops ('\n' :: rest) := by
  intro c head
  cases head
  decide

theorem Harmless.endsLine {text : List Char} (harmless : Harmless text) :
    ∀ kind ∈ kinds text, Stream.endsLine kind = false := by
  intro kind member
  obtain ⟨noNewline, noComment, -, noEof⟩ := harmless.plain.mem_kinds member
  have noEnd : kind ≠ .endUml := fun same => harmless.endUml (same ▸ member)
  -- The kinds that end a line are line feeds, comments, the end mark and the end of a diagram.
  cases kind <;> first | rfl | contradiction

theorem Labels.isLabelled {text : List Char} (labels : Labels text) :
    ∀ kind ∈ kinds text, Stream.isLabelled kind = true := by
  intro kind member
  have noStart : kind ≠ .startUml := fun same => labels.startUml (same ▸ member)
  simp [Stream.isLabelled, labels.endsLine kind member, labels.boundary kind member, noStart]

namespace Stream

theorem restOfLine_lexed {text : List Char} (harmless : Harmless text)
    (lexed : Lexed false (text ++ '\n' :: rest) stream.ahead) :
    ∃ left, stream.restOfLine = (String.ofList text, left) ∧
      Lexed false ('\n' :: rest) left.ahead := by
  obtain ⟨first, more, ahead, join, same, later⟩ :=
    lexed.inert harmless.toInert (stops_lineFeed rest)
  obtain ⟨token, _, cut, newline, _⟩ := later.lineFeed
  have ends : ∀ last ∈ more.head?, endsLine last.kind = true := by
    rw [cut]
    rintro last ⟨⟩
    rw [newline]
    rfl
  obtain ⟨joined, left⟩ := restOfLine_eq ahead (same ▸ harmless.endsLine) ends
  exact ⟨_, Prod.ext (joined.trans join) rfl, left ▸ later⟩

theorem label_lexed {text : List Char} (labels : Labels text)
    (lexed : Lexed false (text ++ '\n' :: rest) stream.ahead) :
    ∃ left, stream.label = (String.ofList text, left) ∧
      Lexed false ('\n' :: rest) left.ahead := by
  obtain ⟨first, more, ahead, join, same, later⟩ :=
    lexed.inert labels.toInert (stops_lineFeed rest)
  obtain ⟨token, _, cut, newline, _⟩ := later.lineFeed
  have ends : ∀ last ∈ more.head?, isLabelled last.kind = false := by
    rw [cut]
    rintro last ⟨⟩
    rw [newline]
    rfl
  obtain ⟨joined, left⟩ := label_eq ahead (same ▸ labels.isLabelled) ends
  exact ⟨_, Prod.ext (joined.trans join) rfl, left ▸ later⟩

theorem name?_lexed {name : String} {text : List Char} (identifier : IsIdentifier name)
    (ends : Token.EndsWord text)
    (lexed : Lexed false (name.toList ++ text) stream.ahead) :
    ∃ token, stream.name? = some (token, stream.drop 1) ∧ token.value = name ∧
      Lexed false text (stream.drop 1).ahead := by
  obtain ⟨token, more, ahead, kind, -, value, later⟩ := lexed.identifier identifier ends
  refine ⟨token, name?_of_ahead ahead (by rw [kind]; rfl), value, ?_⟩
  rw [ahead_drop_one ahead]
  exact later

theorem atWord_lexed (word : String) (identifier : IsIdentifier word) {lineStarts : Bool}
    {text : List Char} (ends : Token.EndsWord text)
    (lexed : Lexed lineStarts (word.toList ++ text) stream.ahead) :
    (∀ other, stream.atWord other = (Text.asciiLower word == other)) ∧
      Lexed false text (stream.drop 1).ahead := by
  obtain ⟨token, more, ahead, kind, same, -, later⟩ := lexed.identifier identifier ends
  rw [← ahead_drop_one ahead] at later
  refine ⟨fun other => ?_, later⟩
  rw [atWord_of_ahead ahead, kind, same]
  rfl

theorem skipLine_lexed {lineStarts : Bool} (lexed : Lexed lineStarts ('\n' :: rest) stream.ahead) :
    stream.skipLine = stream := by
  obtain ⟨token, more, ahead, newline, -⟩ := lexed.lineFeed
  apply skip_eq_self
  rw [ahead]
  rintro last ⟨⟩
  rw [newline]
  rfl

end Stream

namespace Leaf

/-! ## Further names -/

def Further (comma name : Token) : Prop := comma.kind = .comma ∧ name.kind.isName = true

theorem furtherNames_of_further {comma name : Token} {rest : List Token}
    (ahead : stream.ahead = comma :: name :: rest) (further : Further comma name) :
    furtherNames stream =
      (name :: (furtherNames (stream.drop 2)).1, (furtherNames (stream.drop 2)).2) := by
  have second : stream.peekAt 1 = name := Stream.peekAt_one ahead
  rw [furtherNames, Stream.atKind_of_ahead ahead, further.1, second, further.2]
  rfl

theorem further_of_listed
    (listed : (stream.atKind .comma && (stream.peekAt 1).kind.isName) = true) :
    ∃ comma name rest, stream.ahead = comma :: name :: rest ∧ Further comma name ∧
      stream.peekAt 1 = name := by
  rw [Bool.and_eq_true] at listed
  obtain ⟨atComma, named⟩ := listed
  have comma : stream.peek.kind = .comma := eq_of_beq atComma
  obtain ⟨rest, ahead⟩ := Stream.exists_ahead (by rw [comma]; decide)
  have second := Stream.peekAt_one ahead
  cases rest with
  | nil =>
    rw [second, List.headD_nil, stream.kind_eof] at named
    cases named
  | cons name rest =>
    rw [second, List.headD_cons] at named
    exact ⟨_, name, rest, ahead, ⟨comma, named⟩, second⟩

theorem furtherNames_eq_nil
    (none : ∀ comma name rest, stream.ahead = comma :: name :: rest → ¬Further comma name) :
    furtherNames stream = ([], stream) := by
  rw [furtherNames, if_neg]
  intro listed
  obtain ⟨comma, name, rest, ahead, further, -⟩ := further_of_listed listed
  exact none comma name rest ahead further

theorem mem_furtherNames {token : Token} (member : token ∈ (furtherNames stream).1) :
    token ∈ stream.ahead ∧ token.kind.isName = true := by
  fun_induction furtherNames stream with
  | case1 stream listed names left result ih =>
    obtain ⟨comma, name, rest, ahead, further, same⟩ := further_of_listed listed
    rw [result, Stream.ahead_drop, ahead] at ih
    rw [same] at member
    rcases List.mem_cons.1 member with rfl | later
    · exact ⟨by simp [ahead], further.2⟩
    · obtain ⟨inside, named⟩ := ih later
      exact ⟨by rw [ahead]; exact List.mem_of_mem_drop inside, named⟩
  | case2 => cases member

/-! ## Notes on several lines -/

theorem exists_line
    (inside : ¬(stream.skipSeparators.atEnd || stream.skipSeparators.atKind .endUml) = true) :
    ∃ token rest, stream.skipSeparators.ahead = token :: rest ∧
      Stream.endsLine token.kind = false := by
  rw [Bool.or_eq_true, not_or] at inside
  obtain ⟨noEof, noEndUml⟩ := inside
  obtain ⟨rest, ahead⟩ := Stream.exists_ahead fun eof => noEof (beq_iff_eq.2 eof)
  refine ⟨_, rest, ahead, ?_⟩
  have solid : stream.skipSeparators.peek.kind.isSeparator = false :=
    stream.kinds_peek_skip Stream.separators
  rw [Stream.endsLine, solid, Bool.false_or, Bool.or_eq_false_iff]
  exact ⟨Bool.eq_false_iff.2 noEof, Bool.eq_false_iff.2 noEndUml⟩

theorem noteBody_of_ends
    (ends : (stream.skipSeparators.atEnd || stream.skipSeparators.atKind .endUml) = true) :
    noteBody stream = (none, stream.skipSeparators) := by
  rw [noteBody, if_pos ends]

theorem noteBody_of_atEndNote
    (inside : ¬(stream.skipSeparators.atEnd || stream.skipSeparators.atKind .endUml) = true)
    (closes : atEndNote stream.skipSeparators = true) :
    noteBody stream = (some [], stream.skipSeparators.drop 2) := by
  rw [noteBody, if_neg inside, if_pos closes]

theorem noteBody_of_line
    (inside : ¬(stream.skipSeparators.atEnd || stream.skipSeparators.atKind .endUml) = true)
    (opens : ¬atEndNote stream.skipSeparators = true) :
    noteBody stream =
      ((noteBody stream.skipSeparators.restOfLine.2).1.map
          (stream.skipSeparators.restOfLine.1 :: ·),
        (noteBody stream.skipSeparators.restOfLine.2).2) := by
  rw [noteBody, if_neg inside, if_neg opens]

/-! ## Statements -/

theorem onName_lexed (missing : String) (statement : String → Span → Statement) (keyword : Token)
    {target : String} (identifier : IsIdentifier target)
    (lexed : Lexed false (' ' :: (target.toList ++ '\n' :: rest)) stream.ahead) :
    ∃ span left, onName missing statement keyword stream =
        ⟨some (statement target span), none, left⟩ ∧
      Lexed false ('\n' :: rest) left.ahead := by
  obtain ⟨token, name, value, later⟩ :=
    Stream.name?_lexed identifier (Token.endsWord_lineFeed _) lexed.gap
  refine ⟨spanFrom keyword (stream.drop 1), _, ?_, later⟩
  rw [onName, name, ← value]

theorem title_lexed (keyword : Token) {text : List Char} (harmless : Harmless text)
    (lexed : Lexed false (' ' :: (text ++ '\n' :: rest)) stream.ahead) :
    ∃ span left, title keyword stream = ⟨some (.title (String.ofList text) span), none, left⟩ ∧
      Lexed false ('\n' :: rest) left.ahead := by
  obtain ⟨left, read, later⟩ := Stream.restOfLine_lexed harmless lexed.gap
  exact ⟨spanFrom keyword left, left, by rw [title, read], later⟩

theorem message_receiver {sender : Token} (isName : sender.kind.isName = true) {target : String}
    (identifier : IsIdentifier target) {tail : List Char}
    (ends : Token.EndsWord tail)
    (lexed : Lexed false (' ' :: '-' :: '>' :: ' ' :: (target.toList ++ tail)) stream.ahead) :
    ∃ left : Stream, Lexed false tail left.ahead ∧
      message sender stream =
        let (text, last) := if left.atKind .colon then (left.drop 1).restOfLine else ("", left)
        ⟨some (.message sender.value target text "->" false false (spanFrom sender last)), none,
          last⟩ := by
  obtain ⟨arrow, more, ahead, kind, text, later⟩ :=
    lexed.gap.uncons (Token.lexemes_arrow _ _)
  have atArrow : stream.atKind .arrow = true := by rw [Stream.atKind_of_ahead ahead, kind]; rfl
  rw [← Stream.ahead_drop_one ahead] at later
  obtain ⟨receiver, name, value, left⟩ :=
    Stream.name?_lexed identifier ends later.gap
  refine ⟨_, left, ?_⟩
  rw [message, if_pos isName, if_pos atArrow]
  dsimp only
  rw [name, Stream.peek_of_ahead ahead, text, ← value]
  rfl

theorem message_lexed {sender : Token} (isName : sender.kind.isName = true) {target : String}
    (identifier : IsIdentifier target)
    (lexed : Lexed false (' ' :: '-' :: '>' :: ' ' :: (target.toList ++ '\n' :: rest))
      stream.ahead) :
    ∃ span left,
      message sender stream =
        ⟨some (.message sender.value target "" "->" false false span), none, left⟩ ∧
      Lexed false ('\n' :: rest) left.ahead := by
  obtain ⟨left, later, read⟩ := message_receiver isName identifier (Token.endsWord_lineFeed _) lexed
  obtain ⟨newline, more, ahead, kind, -⟩ := later.lineFeed
  have noColon : left.atKind .colon = false := by rw [Stream.atKind_of_ahead ahead, kind]; rfl
  rw [noColon, if_neg Bool.false_ne_true] at read
  exact ⟨_, left, read, later⟩

theorem message_text_lexed {sender : Token} (isName : sender.kind.isName = true) {target : String}
    (identifier : IsIdentifier target) {text : List Char} (harmless : Harmless text)
    (lexed : Lexed false (' ' :: '-' :: '>' :: ' ' :: (target.toList ++
      ' ' :: ':' :: ' ' :: (text ++ '\n' :: rest))) stream.ahead) :
    ∃ span left,
      message sender stream =
        ⟨some (.message sender.value target (String.ofList text) "->" false false span), none,
          left⟩ ∧
      Lexed false ('\n' :: rest) left.ahead := by
  obtain ⟨left, later, read⟩ := message_receiver isName identifier (Token.endsWord_space _) lexed
  obtain ⟨colon, more, ahead, kind, text'⟩ := later.gap.mark .colon (by decide)
  have atColon : left.atKind .colon = true := by rw [Stream.atKind_of_ahead ahead, kind]; rfl
  rw [← Stream.ahead_drop_one ahead] at text'
  obtain ⟨last, joined, ends⟩ := Stream.restOfLine_lexed harmless text'.gap
  rw [atColon, if_pos rfl, joined] at read
  exact ⟨_, last, read, ends⟩

theorem unquote_quoted (body : List Char) : Token.unquote ('"' :: (body ++ ['"'])) = body := by
  simp [Token.unquote]

theorem participant_lexed (role : Role) (keyword : Token) {shown : List Char}
    (closed : '"' ∉ shown) {short : String} (identifier : IsIdentifier short)
    (lexed : Lexed false (' ' :: '"' :: (shown ++ '"' :: ' ' :: 'a' :: 's' :: ' ' ::
      (short.toList ++ '\n' :: rest))) stream.ahead) :
    ∃ span left,
      participant role keyword stream =
        ⟨some (.participant role (String.ofList shown) (some short) span), none, left⟩ ∧
      Lexed false ('\n' :: rest) left.ahead := by
  obtain ⟨name, more, ahead, kind, text, later⟩ :=
    lexed.gap.uncons (Token.lexemes_string closed _ _)
  have value : name.value = String.ofList shown := by
    rw [Token.value, kind, text]
    dsimp only
    rw [String.toList_ofList, unquote_quoted]
  have isName : name.kind.isName = true := by rw [kind]; rfl
  rw [← Stream.ahead_drop_one ahead] at later
  obtain ⟨as, more', ahead', kind', text', later'⟩ :=
    later.gap.word ['a', 's'] (by decide) (Token.endsWord_space _)
  have atAs : (stream.drop 1).atWord "as" = true := by
    rw [Stream.atWord_of_ahead ahead', kind', text']
    decide
  rw [← Stream.ahead_drop_one ahead'] at later'
  obtain ⟨token, nickname_eq, short_eq, ends⟩ :=
    Stream.name?_lexed identifier (Token.endsWord_lineFeed _) later'.gap
  refine ⟨spanFrom keyword (((stream.drop 1).drop 1).drop 1), _, ?_, ends⟩
  rw [participant, Stream.name?_of_ahead ahead isName]
  dsimp only
  rw [nickname, if_pos atAs]
  dsimp only
  rw [nickname_eq]
  dsimp only
  rw [Stream.skipLine_lexed ends, value, short_eq]

end Leaf

end Lifeline
