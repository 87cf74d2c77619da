import Lifeline.Proofs.Token.Lexed
import Lifeline.Proofs.Token.Tiling
import Lifeline.Proofs.Text.Trim
import Mathlib.Data.List.Chain

/-! Sources without quotes and block comments.

Where a source holds no quote, no opener of a block comment and no blanks but spaces, tabs and the
ends of lines, any run of tokens on one line is the run of a text of its own. So what such tokens are
joined to can be written on a line again, and is read as the same tokens. -/

set_option autoImplicit false

namespace Lifeline.Token

open Lexeme (isSpace isArrowTail EndsArrow Measured numberBody fractionBody)
open Text (isBlank collapse)

/-- A text without quotes, block comments and uncommon blanks. -/
structure Clear (text : List Char) : Prop where
  quote : '"' ∉ text
  comment : ¬['/', '\''] <:+: text
  blank : ∀ c ∈ text, isBlank c = true → isSpace c = true ∨ c = '\n'

theorem Clear.part {text part : List Char} (clear : Clear text) (within : part <:+: text) :
    Clear part where
  quote member := clear.quote (within.subset member)
  comment opener := clear.comment (opener.trans within)
  blank c member := clear.blank c (within.subset member)

theorem Clear.drop {c : Char} {rest : List Char} (clear : Clear (c :: rest)) (count : Nat) :
    Clear (rest.drop count) :=
  clear.part ((List.drop_suffix count rest).trans (List.suffix_cons c rest)).isInfix

/-! ## The characters of a token -/

theorem take_takeWhile (p : Char → Bool) (text : List Char) :
    text.take (text.takeWhile p).length = text.takeWhile p :=
  (List.prefix_iff_eq_take.1 (List.takeWhile_prefix p)).symm

theorem drop_takeWhile {α : Type} (p : α → Bool) (items : List α) :
    items.drop (items.takeWhile p).length = items.dropWhile p := by
  have whole : (items.takeWhile p ++ items.dropWhile p).drop (items.takeWhile p).length =
      items.dropWhile p := List.drop_left
  rwa [List.takeWhile_append_dropWhile] at whole

theorem mem_take_takeWhile {p : Char → Bool} {text : List Char} {c : Char}
    (member : c ∈ text.take (text.takeWhile p).length) : p c = true := by
  rw [take_takeWhile] at member
  exact List.mem_takeWhile_imp member

theorem Lexeme.exists_quote {rest : List Char}
    (closed : (Lexeme.stringBody rest).1 ≠ .unknown) :
    ∃ inner tail, '"' ∉ inner ∧ rest = inner ++ '"' :: tail := by
  have whole := List.takeWhile_append_dropWhile (p := (· != '"')) (l := rest)
  cases ends : rest.dropWhile (· != '"') with
  | nil =>
    rw [ends, List.append_nil] at whole
    rw [Lexeme.stringBody, whole, if_neg (Nat.lt_irrefl _)] at closed
    exact absurd rfl closed
  | cons c tail =>
    have quote := List.head?_dropWhile_not (· != '"') rest
    rw [ends] at quote
    obtain rfl : c = '"' := by simpa using quote
    rw [ends] at whole
    exact ⟨_, tail, fun member => absurd (List.mem_takeWhile_imp member) (by decide), whole.symm⟩

theorem mem_fractionBody {text : List Char} {c : Char}
    (member : c ∈ text.take (fractionBody text)) : c.isDigit = true ∨ c = '.' := by
  unfold fractionBody at member
  split at member
  · rename_i digit more
    split at member
    · rename_i isDigit
      rw [Nat.add_comm, List.take_succ_cons, List.take_succ_cons] at member
      rcases List.mem_cons.1 member with rfl | member
      · exact .inr rfl
      · rcases List.mem_cons.1 member with rfl | member
        · exact .inl isDigit
        · exact .inl (mem_take_takeWhile member)
    · cases member
  · cases member

theorem mem_numberBody {text : List Char} {c : Char} (member : c ∈ text.take (numberBody text)) :
    c.isDigit = true ∨ c = '.' := by
  rw [Lexeme.numberBody_eq, List.take_add, List.mem_append] at member
  rcases member with whole | fraction
  · exact .inl (mem_take_takeWhile whole)
  · exact mem_fractionBody fraction

def isNameChar (c : Char) : Bool := isIdentifierChar c || c == '.'

theorem isNameChar_of_isIdentifierChar {c : Char} (member : isIdentifierChar c = true) :
    isNameChar c = true := by
  rw [isNameChar, member, Bool.true_or]

theorem isNameChar_of_isDigit {c : Char} (digit : c.isDigit = true ∨ c = '.') :
    isNameChar c = true := by
  rcases digit with digit | rfl
  · exact isNameChar_of_isIdentifierChar (by simp [isIdentifierChar, digit])
  · decide

theorem isBlank_of_isNameChar {c : Char} (member : isNameChar c = true) :
    isBlank c = false := by
  rw [isNameChar, Bool.or_eq_true] at member
  -- Identifier characters are never blank, and a point is not either.
  rcases member with identifier | point
  · exact isBlank_of_isIdentifierChar identifier
  · rw [beq_iff_eq] at point
    rw [point]
    decide

theorem isArrowTail_cases {c : Char} (tail : isArrowTail c = true) :
    c = '-' ∨ c = '>' ∨ c = '<' ∨ c = '\\' := by
  simpa [isArrowTail, or_assoc] using tail

theorem isBlank_of_isArrowTail {c : Char} (tail : isArrowTail c = true) : isBlank c = false := by
  rcases isArrowTail_cases tail with rfl | rfl | rfl | rfl <;> decide

namespace Lexeme.Measured

variable {lineStarts : Bool} {c : Char} {rest : List Char} {kind : Option Kind} {count : Nat}

theorem mem_body (measured : Measured lineStarts c rest kind count)
    (noComment : kind ≠ some .comment) (noQuote : c ≠ '"') :
    ∀ d ∈ rest.take count, isNameChar d = true ∨ isArrowTail d = true := by
  intro d member
  cases measured with
  | space | lineFeed | mark | lone => cases member
  | blockComment => exact absurd rfl noComment
  | lineComment => exact absurd rfl noComment
  | string | openString => exact absurd rfl noQuote
  | arrow => exact .inr (mem_take_takeWhile member)
  | directive =>
    have alphanumeric := mem_take_takeWhile member
    left
    apply isNameChar_of_isIdentifierChar
    simp only [isIdentifierChar, alphanumeric, Bool.true_or]
  | word => exact .inl (isNameChar_of_isIdentifierChar (mem_take_takeWhile member))
  | number => exact .inl (isNameChar_of_isDigit (mem_numberBody member))

theorem mem_identifier (measured : Measured lineStarts c rest (some .identifier) count) :
    ∀ d ∈ c :: rest.take count, isNameChar d = true := by
  generalize same : some Kind.identifier = kind at measured
  cases measured with
  | mark listed => exact absurd (Option.some.inj same).symm (mark_ne listed (by decide))
  | directive =>
    exact absurd (Option.some.inj same).symm (getD_keyword?_ne (by decide) (by decide))
  | word start =>
    refine List.forall_mem_cons.2 ⟨?_, fun d member => ?_⟩
    · exact isNameChar_of_isIdentifierChar (isIdentifierChar_of_start start)
    · exact isNameChar_of_isIdentifierChar (mem_take_takeWhile member)
  | number digit =>
    refine List.forall_mem_cons.2 ⟨isNameChar_of_isDigit (.inl digit), fun d member => ?_⟩
    exact isNameChar_of_isDigit (mem_numberBody member)
  | _ => cases same

theorem comment_ends (measured : Measured lineStarts c rest kind count)
    (comment : kind = some .comment) (noBlock : ¬['/', '\''] <+: c :: rest) :
    ∀ d ∈ (rest.drop count).head?, d = '\n' := by
  subst comment
  cases measured.formed (by decide) with
  | blockComment => exact absurd (List.prefix_append ['/', '\''] _) noBlock
  | lineComment =>
    intro d head
    have stopped := List.head?_dropWhile_not (· != '\n') rest
    rw [← drop_takeWhile, Option.mem_def.1 head] at stopped
    simpa using stopped

theorem of_isArrowTail (measured : Measured lineStarts c rest kind count)
    (arrow : isArrowTail c = true) : kind = some .arrow ∨ kind = some .unknown := by
  have cases := isArrowTail_cases arrow
  cases measured with
  | arrow => exact .inl rfl
  | lone | openString => exact .inr rfl
  | space space => rcases cases with rfl | rfl | rfl | rfl <;> exact absurd space (by decide)
  | mark listed =>
    have first : c ∈ marks.map Prod.fst := List.mem_map.2 ⟨_, listed, rfl⟩
    rcases cases with rfl | rfl | rfl | rfl <;> exact absurd first (by decide)
  | word start => rcases cases with rfl | rfl | rfl | rfl <;> exact absurd start (by decide)
  | number digit => rcases cases with rfl | rfl | rfl | rfl <;> exact absurd digit (by decide)
  | _ => exact absurd arrow (by decide)

end Lexeme.Measured

/-! ## Runs of tokens -/

theorem measure_of_not_comment {lineStarts : Bool} {c : Char} {rest : List Char}
    (noComment : (Lexeme.measure lineStarts c rest).1 ≠ some .comment) :
    Lexeme.measure false c rest = Lexeme.measure lineStarts c rest := by
  by_cases apostrophe : c = '\''
  · subst apostrophe
    cases lineStarts with
    | false => rfl
    | true => exact absurd rfl noComment
  · unfold Lexeme.measure
    simp only [show (c == '\'') = false by simpa using apostrophe, Bool.false_and]

theorem Clear.noFeed {c : Char} {rest : List Char} (clear : Clear (c :: rest)) (lineStarts : Bool)
    (noComment : (Lexeme.measure lineStarts c rest).1 ≠ some .comment)
    (noNewline : (Lexeme.measure lineStarts c rest).1 ≠ some .newline) :
    '\n' ∉ c :: rest.take (Lexeme.measure lineStarts c rest).2 := by
  intro member
  rcases List.mem_cons.1 member with rfl | later
  · exact noNewline rfl
  · -- Only strings and comments go on over the end of a line.
    have noQuote : c ≠ '"' := fun same => clear.quote (same ▸ List.mem_cons_self)
    have measured := Lexeme.measured_measure lineStarts c rest
    rcases measured.mem_body noComment noQuote '\n' later with name | arrow
    · exact absurd name (by decide)
    · exact absurd arrow (by decide)

theorem lexemes_take_append {lineStarts : Bool} {c : Char} {rest slice tail : List Char}
    {kind : Kind} {count : Nat} (same : Lexeme.measure lineStarts c rest = (some kind, count))
    (noComment : kind ≠ .comment) (noNewline : kind ≠ .newline)
    (cut : rest.drop count = slice ++ tail) (ends : EndsArrow tail) :
    lexemes false (c :: rest.take count ++ slice) =
      ⟨some kind, c :: rest.take count⟩ :: lexemes false slice := by
  have measured := Lexeme.measured_measure lineStarts c rest
  rw [same] at measured
  have length : (rest.take count).length = count := List.length_take_of_le measured.count_le
  have shape : (rest.take count ++ slice) ++ tail = rest := by
    rw [List.append_assoc, ← cut, List.take_append_drop]
  -- Before all that follows it the lexeme is as it was, and before the slice alone it still fits.
  have inLine :
      Lexeme.measure false c ((rest.take count ++ slice) ++ tail) = (some kind, count) := by
    rw [shape, ← same]
    apply measure_of_not_comment
    rw [same]
    simpa using noComment
  have fits : (Lexeme.measure false c ((rest.take count ++ slice) ++ tail)).2 ≤
      (rest.take count ++ slice).length := by
    rw [inLine, List.length_append, length]
    exact Nat.le_add_right _ _
  rw [Lexeme.measure_append_of_fits ends fits] at inLine
  have stays : Lexeme.linesUp false (some kind) = false := by
    simpa [Lexeme.linesUp] using noNewline
  rw [List.cons_append, lexemes_cons, inLine]
  dsimp only
  rw [List.take_left' length, List.drop_left' length, stays]

/-- A run of tokens on one line is the run of a text of its own, if no part of an arrow ends it. -/
theorem exists_slice {p : Kind → Bool} (newline : p .newline = false) (comment : p .comment = false)
    (arrow : p .arrow = true) (unknown : p .unknown = true) {text : List Char} (clear : Clear text)
    (lineStarts : Bool) (position : Position) : ∃ slice tail, text = slice ++ tail ∧
      EndsArrow tail ∧ '\n' ∉ slice ∧
      (placed position (lexemes lineStarts text)).takeWhile (p ·.kind) =
        placed position (lexemes false slice) := by
  -- The induction follows the scanner. A lexeme that goes on with the run is put before the slice
  -- of what follows it; at the first one that does not, the slice is empty.
  fun_induction lexemes lineStarts text generalizing position with
  | case1 => exact ⟨[], [], rfl, by simp [EndsArrow], by simp, by simp [lexemes]⟩
  | case2 lineStarts c rest kind count same ih =>
    have measured := Lexeme.measured_measure lineStarts c rest
    have noFeed := clear.noFeed lineStarts
    rw [same] at measured noFeed
    obtain ⟨slice, tail, cut, ends, inside, run⟩ :=
      ih (clear.drop count) (position.advance (c :: rest.take count))
    cases kind with
    | none =>
      have space := measured.isSpace_of_none
      have feed : '\n' ≠ c := by
        rintro rfl
        exact absurd space (by decide)
      have zero : count = 0 := by
        cases measured
        rfl
      subst zero
      refine ⟨c :: slice, tail, ?_, ends, ?_, ?_⟩
      · rw [List.cons_append, ← cut, List.drop_zero]
      · simpa [feed] using inside
      · rw [lexemes_space space, placed_blank, placed_blank]
        exact run
    | some kind =>
      rw [placed_token, List.takeWhile_cons]
      by_cases goesOn : p kind = true
      · have noComment : kind ≠ .comment := fun is => by simp [is, comment] at goesOn
        have noNewline : kind ≠ .newline := fun is => by simp [is, newline] at goesOn
        refine ⟨c :: rest.take count ++ slice, tail, ?_, ends, ?_, ?_⟩
        · rw [List.append_assoc, ← cut, List.cons_append, List.take_append_drop]
        · rw [List.mem_append]
          exact fun member =>
            member.elim (noFeed (by simpa using noComment) (by simpa using noNewline)) inside
        · rw [kind_new, if_pos goesOn, run, lexemes_take_append same noComment noNewline cut ends,
            placed_token]
      · refine ⟨[], c :: rest, rfl, ?_, by simp, ?_⟩
        · rintro d ⟨⟩
          rw [Bool.eq_false_iff]
          intro tail
          rcases measured.of_isArrowTail tail with found | found <;> cases found
          · exact goesOn arrow
          · exact goesOn unknown
        · rw [kind_new, if_neg goesOn]
          simp [lexemes]

theorem Clear.plain {text : List Char} (clear : Clear text) (inside : '\n' ∉ text) :
    Plain text where
  quote := clear.quote
  comment := clear.comment
  blank c member blank := by
    rcases clear.blank c member blank with space | rfl
    · exact space
    · exact absurd member inside

theorem Plain.inert_collapse {text : List Char} (plain : Plain text) : Inert (collapse text) where
  plain := {
    quote := fun member => by
      obtain ⟨before, after, same⟩ := List.append_of_mem member
      have run : ['"'] <:+: collapse text := ⟨before, after, by simp [same]⟩
      have inside := Text.infix_of_infix_collapse (by simp) (by decide) run
      exact plain.quote (inside.subset List.mem_cons_self)
    comment := fun opener =>
      plain.comment (Text.infix_of_infix_collapse (by simp) (by decide) opener)
    blank := fun c member blank => by
      rw [(Text.spaced_collapse text).eq_space member blank]
      decide }
  collapsed := Text.collapse_collapse text

/-! ## The last tokens of a clear source -/

def EndsClear (tokens : List Token) : Prop :=
  ∃ source, Clear source ∧ tokens <:+ placed .start (lexemes true source)

theorem EndsClear.suffix {tokens rest : List Token} (clear : EndsClear tokens)
    (within : rest <:+ tokens) : EndsClear rest := by
  obtain ⟨source, clear, ends⟩ := clear
  exact ⟨source, clear, within.trans ends⟩

theorem lexed_of_suffix {lineStarts : Bool} {text : List Char} {position : Position}
    {tokens : List Token} (within : tokens <:+ placed position (lexemes lineStarts text)) :
    ∃ later rest, rest <:+ text ∧ Lexed later rest tokens := by
  fun_induction lexemes lineStarts text generalizing position with
  | case1 => exact ⟨true, [], List.suffix_refl _, position, by simpa [lexemes] using within⟩
  | case2 lineStarts c rest kind count same ih =>
    have inside : rest.drop count <:+ c :: rest :=
      (List.drop_suffix count rest).trans (List.suffix_cons c rest)
    have whole : lexemes lineStarts (c :: rest) = ⟨kind, c :: rest.take count⟩ ::
        lexemes (Lexeme.linesUp lineStarts kind) (rest.drop count) := by
      rw [lexemes_cons, same]
    have further (later : tokens <:+ placed (position.advance (c :: rest.take count))
        (lexemes (Lexeme.linesUp lineStarts kind) (rest.drop count))) :
        ∃ starts more, more <:+ c :: rest ∧ Lexed starts more tokens := by
      obtain ⟨starts, more, ends, lexed⟩ := ih later
      exact ⟨starts, more, ends.trans inside, lexed⟩
    cases kind with
    | none => exact further within
    | some kind =>
      rw [placed_token, List.suffix_cons_iff] at within
      rcases within with all | later
      · refine ⟨lineStarts, c :: rest, List.suffix_refl _, position, ?_⟩
        rw [all, whole, placed_token]
      · exact further later

theorem EndsClear.lexed {tokens : List Token} (clear : EndsClear tokens) :
    ∃ lineStarts text, Clear text ∧ Lexed lineStarts text tokens := by
  obtain ⟨source, clear, ends⟩ := clear
  obtain ⟨lineStarts, text, within, lexed⟩ := lexed_of_suffix ends
  exact ⟨lineStarts, text, clear.part within.isInfix, lexed⟩

theorem EndsClear.join_run {tokens : List Token} (clear : EndsClear tokens) {p : Kind → Bool}
    (newline : p .newline = false) (comment : p .comment = false) (arrow : p .arrow = true)
    (unknown : p .unknown = true) : ∃ text, Inert text ∧
      Stream.join (tokens.takeWhile (p ·.kind)) = String.ofList text ∧
      kinds text = (tokens.takeWhile (p ·.kind)).map Token.kind ∧
      ∀ kind ∈ kinds text, p kind = true := by
  have stays : ∀ kind ∈ (tokens.takeWhile (p ·.kind)).map Token.kind, p kind = true := by
    intro kind member
    obtain ⟨token, inside, rfl⟩ := List.mem_map.1 member
    exact List.mem_takeWhile_imp (p := fun token => p (Token.kind token)) inside
  obtain ⟨lineStarts, text, clearText, position, rfl⟩ := clear.lexed
  obtain ⟨slice, tail, rfl, -, inside, run⟩ :=
    exists_slice newline comment arrow unknown clearText lineStarts position
  -- The slice lies on one line, so it is plain, and collapsing it keeps its tokens.
  have plain := (clearText.part (List.prefix_append slice tail).isInfix).plain inside
  have read : kinds (collapse slice) = ((placed position (lexemes lineStarts
      (slice ++ tail))).takeWhile (p ·.kind)).map Token.kind := by
    rw [run, map_kind_placed, kinds_collapse plain, kinds]
  refine ⟨collapse slice, plain.inert_collapse, ?_, read, read ▸ stays⟩
  rw [run, join_placed plain]

theorem EndsClear.mem_lexemes {tokens : List Token} (clear : EndsClear tokens) {token : Token}
    (member : token ∈ tokens) : ∃ lineStarts c rest count,
      Measured lineStarts c rest (some token.kind) count ∧
      token.text.toList = c :: rest.take count ∧ c ≠ '"' := by
  obtain ⟨source, clear, ends⟩ := clear
  obtain ⟨lexeme, inside, kind, text⟩ := mem_placed (ends.subset member)
  obtain ⟨lineStarts, c, rest, count, measured, same⟩ := measured_of_mem inside
  have within := List.infix_of_mem_flatten (List.mem_map_of_mem (f := Lexeme.text) inside)
  rw [flatten_lexemes, same] at within
  refine ⟨lineStarts, c, rest, count, kind ▸ measured, text ▸ same, ?_⟩
  rintro rfl
  exact clear.quote (within.subset List.mem_cons_self)

theorem EndsClear.text_ne {tokens : List Token} (clear : EndsClear tokens) {token : Token}
    (member : token ∈ tokens) : token.text ≠ "" ∧ token.kind ≠ .eof := by
  obtain ⟨source, -, ends⟩ := clear
  exact text_ne_of_mem (ends.subset member)

structure IsName (name : String) : Prop where
  nonempty : name ≠ ""
  members : ∀ c ∈ name.toList, isNameChar c = true

theorem EndsClear.isName {tokens : List Token} (clear : EndsClear tokens) {token : Token}
    (member : token ∈ tokens) (name : token.kind.isName = true) : IsName token.value := by
  obtain ⟨_, c, rest, count, measured, same, noQuote⟩ := clear.mem_lexemes member
  -- A name is an identifier or a string, and strings start with a quote.
  have identifier : token.kind = .identifier := by
    cases found : token.kind with
    | identifier => rfl
    | string =>
      rw [found] at measured
      cases measured.formed (by decide)
      exact absurd rfl noQuote
    | _ => rw [found] at name; cases name
  have value : token.value = token.text := by rw [value, identifier]
  rw [identifier] at measured
  refine ⟨fun empty => ?_, fun d inside => ?_⟩
  · rw [← value, empty] at same
    cases same
  · rw [value, same] at inside
    exact measured.mem_identifier d inside

/-! ## Apostrophes -/

theorem Kind.eq_of_isSeparator {kind : Kind} (separator : kind.isSeparator = true) :
    kind = .newline ∨ kind = .comment := by
  cases kind with
  | newline => exact .inl rfl
  | comment => exact .inr rfl
  | _ => cases separator

/-- Whether a token does not follow the start of its line as an apostrophe. -/
def LeavesComment (previous token : Token) : Prop :=
  previous.kind.isSeparator = true → token.kind ≠ .comment → token.text.toList.head? ≠ some '\''

theorem head?_lineStarts {text : List Char} {position : Position} :
    ∀ token ∈ (placed position (lexemes true text)).head?, token.kind ≠ .comment →
      token.text.toList.head? ≠ some '\'' := by
  generalize starts : true = lineStarts
  fun_induction lexemes lineStarts text generalizing position with
  | case1 => exact fun _ none => by cases none
  | case2 lineStarts c rest kind count same ih =>
    subst starts
    cases kind with
    | none => exact ih rfl
    | some kind =>
      rintro token ⟨⟩ noComment apostrophe
      rw [text_new, String.toList_ofList, List.head?_cons, Option.some.injEq] at apostrophe
      rw [apostrophe] at same
      cases same
      exact noComment rfl

theorem head?_lineEnds {text : List Char} (ends : ∀ c ∈ text.head?, c = '\n') {lineStarts : Bool}
    {position : Position} : ∀ token ∈ (placed position (lexemes lineStarts text)).head?,
      token.text.toList.head? ≠ some '\'' := by
  cases text with
  | nil =>
    intro token none
    simp [lexemes] at none
  | cons c rest =>
    obtain rfl := ends c rfl
    rw [lexemes_lineFeed, placed_token]
    rintro token ⟨⟩
    rw [text_new, String.toList_ofList, List.head?_cons]
    decide

theorem chain_placed {text : List Char} (clear : Clear text) {lineStarts : Bool}
    {position : Position} : (placed position (lexemes lineStarts text)).IsChain LeavesComment := by
  fun_induction lexemes lineStarts text generalizing position with
  | case1 => exact .nil
  | case2 lineStarts c rest kind count same ih =>
    have measured := Lexeme.measured_measure lineStarts c rest
    rw [same] at measured
    cases kind with
    | none => exact ih (clear.drop count)
    | some kind =>
      rw [placed_token]
      refine List.isChain_cons.2 ⟨fun token head separator noComment => ?_, ih (clear.drop count)⟩
      rcases Kind.eq_of_isSeparator separator with newline | comment
      · -- After a line feed a line starts, and after a comment one ends.
        cases newline
        exact head?_lineStarts token head noComment
      · cases comment
        have noBlock : ¬['/', '\''] <+: c :: rest := fun opener => clear.comment opener.isInfix
        exact head?_lineEnds (measured.comment_ends rfl noBlock) token head

theorem EndsClear.chain {tokens : List Token} (clear : EndsClear tokens) :
    tokens.IsChain LeavesComment := by
  obtain ⟨source, clear, before, same⟩ := clear
  have whole : (placed .start (lexemes true source)).IsChain LeavesComment := chain_placed clear
  rw [← same] at whole
  exact whole.right_of_append

end Lifeline.Token
